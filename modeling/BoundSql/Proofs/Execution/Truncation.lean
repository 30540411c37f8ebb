import BoundSql.Execution.Monitor

/-!
# What is logged of a statement

The text of a statement is cut at the last byte position within the limit that is not within
a character, which the walk back from the limit finds (`Monitor.le_boundary`).  So what is
left is the longest beginning of the text that takes up no more bytes than the limit
(`Monitor.longestBeginning_cut`), and every event of a monitored call shows the statement as
it is, where it fits the limit, or that beginning with three dots
(`Monitor.logs_longest_beginning`).
-/

namespace BoundSql

/-- The longest beginning of a text that takes up at most `room` bytes. -/
structure LongestBeginning (room : Nat) (s beginning : String) : Prop where
  split : ∃ rest, s = beginning ++ rest
  fits : beginning.utf8ByteSize ≤ room
  longest : ∀ other rest, s = other ++ rest → other.utf8ByteSize ≤ room →
    ∃ more, beginning = other ++ more

/-- The text takes up no more bytes than are logged, if there is a limit. -/
def MonitorSettings.Fits (settings : MonitorSettings) (sql : String) : Prop :=
  ∀ room, settings.maxSql? = some room → sql.utf8ByteSize ≤ room

/-- The statement that an event shows. -/
def Event.sql : Event → String
  | .compiled _ sql _ => sql
  | .finished _ sql _ _ => sql
  | .slow _ sql _ => sql
  | .failed _ sql _ _ => sql

namespace Monitor

variable {s sql : String} {m n room : Nat} {settings : MonitorSettings}

/-! ## The walk back -/

/-- Walking back never goes forward. -/
theorem boundary_le (s : String) (n : Nat) : boundary s n ≤ n := by
  induction n with
  | zero => exact Nat.le_refl 0
  | succ n ih =>
      rw [boundary]
      split
      · exact Nat.le_refl (n + 1)
      · exact Nat.le_succ_of_le ih

/-- The walk back passes over no position between two characters. -/
theorem le_boundary (hm : (⟨m⟩ : String.Pos.Raw).IsValid s) (h : m ≤ n) : m ≤ boundary s n := by
  induction n with
  | zero => exact h
  | succ n ih =>
      rw [boundary]
      split
      · exact h
      · rename_i hinside
        have hne : m ≠ n + 1 := by
          rintro rfl
          exact hinside hm
        exact ih (by omega)

/-- Of two beginnings of a text the one of no more bytes is a beginning of the other. -/
theorem exists_append_of_size_le {a b c d : String} (h : a ++ b = c ++ d)
    (hsize : a.utf8ByteSize ≤ c.utf8ByteSize) : ∃ more, c = a ++ more := by
  have hlist : a.toList ++ b.toList = c.toList ++ d.toList := by
    rw [← String.toList_append, ← String.toList_append, h]
  rcases List.append_eq_append_iff.1 hlist with ⟨more, hc, -⟩ | ⟨more, ha, -⟩
  · exact ⟨String.ofList more, String.toList_inj.1 (by simpa using hc)⟩
  · obtain rfl : a = c ++ String.ofList more := String.toList_inj.1 (by simpa using ha)
    have hempty : (String.ofList more).utf8ByteSize = 0 := by
      rw [String.utf8ByteSize_append] at hsize
      omega
    rw [String.utf8ByteSize_eq_zero_iff.1 hempty, String.append_empty]
    exact ⟨"", String.append_empty.symm⟩

/-- **A text is cut to its longest beginning within the limit.** -/
theorem longestBeginning_cut (room : Nat) (s : String) : LongestBeginning room s (cut room s) := by
  rw [cut]
  split
  · rename_i hfits
    exact ⟨⟨"", String.append_empty.symm⟩, hfits, fun other rest h _ => ⟨rest, h⟩⟩
  · have hsplits := (s.pos ⟨boundary s room⟩ (isValid_boundary s room)).splits
    have hsize : (s.sliceTo (s.pos ⟨boundary s room⟩ (isValid_boundary s room))).copy.utf8ByteSize =
        boundary s room := by
      simp
    refine ⟨⟨_, hsplits.eq_append⟩, ?_, fun other rest h hother => ?_⟩
    · rw [hsize]
      exact boundary_le s room
    · have hvalid : (⟨other.utf8ByteSize⟩ : String.Pos.Raw).IsValid s :=
        String.Pos.Raw.isValid_iff_exists_append.2 ⟨other, rest, h, rfl⟩
      refine exists_append_of_size_le (h.symm.trans hsplits.eq_append) ?_
      rw [hsize]
      exact le_boundary hvalid hother

/-! ## The log -/

/-- A text that fits is logged whole. -/
theorem shorten_of_fits (h : settings.Fits sql) : shorten settings sql = .whole sql := by
  rw [shorten]
  split
  · rename_i room hroom
    exact if_neg (Nat.not_lt.2 (h room hroom))
  · rfl

/-- A longer text is cut to the room there is. -/
theorem shorten_of_lt (hroom : settings.maxSql? = some room) (h : room < sql.utf8ByteSize) :
    shorten settings sql = .shortened (cut room sql) := by
  simp only [shorten, hroom, if_pos h]

/-- What does not fit is longer than the room there is. -/
theorem exists_of_not_fits (h : ¬settings.Fits sql) :
    ∃ room, settings.maxSql? = some room ∧ room < sql.utf8ByteSize := by
  simpa [MonitorSettings.Fits] using h

/-- A monitored call adds events that show its statement as it is logged. -/
theorem exists_events_observe {σ α : Type} (settings : MonitorSettings) (kind : CallKind)
    (sql : String) (params : Nat) (rows : α → Nat) (call : Run σ α) (s : Session σ) :
    ∃ noted : List Event, noted ≠ [] ∧ (∀ e ∈ noted, e.sql = logged settings sql) ∧
      (observe settings kind sql params rows call s).2.events =
        (call.within settings.timeout? s).2.events ++ noted := by
  cases hcall : call.within settings.timeout? s with
  | mk answer t =>
      cases answer with
      | error e =>
          refine ⟨[.failed kind (logged settings sql) params e], List.cons_ne_nil _ _, ?_, ?_⟩
          · simp [Event.sql]
          · simp only [observe, hcall]
            rfl
      | ok a =>
          by_cases hslow : settings.slowAfter?.any (· < t.now - s.now) = true
          · refine ⟨[.finished kind (logged settings sql) params (rows a),
              .slow kind (logged settings sql) params], List.cons_ne_nil _ _, ?_, ?_⟩
            · simp [Event.sql]
            · simp only [observe, hcall, if_pos hslow]
              exact List.append_assoc t.events [_] [_]
          · refine ⟨[.finished kind (logged settings sql) params (rows a)],
              List.cons_ne_nil _ _, ?_, ?_⟩
            · simp [Event.sql]
            · simp only [observe, hcall, if_neg hslow]
              rfl

/-- **The log keeps the longest beginning that fits.**  Under every limit a text is cut
between two characters, to its longest beginning of no more bytes.  A statement is logged as
it is just when it fits the limit or there is none, and else as its longest beginning with
three dots behind it.  In characters alone the two can be told apart, unless what is cut off
is three dots itself.  Every event that a monitored call adds shows its statement so. -/
theorem logs_longest_beginning (settings : MonitorSettings) (sql : String) :
    (∀ room, (⟨boundary sql room⟩ : String.Pos.Raw).IsValid sql ∧
      LongestBeginning room sql (cut room sql)) ∧
    (shorten settings sql = .whole sql ↔ settings.Fits sql) ∧
    (settings.Fits sql → logged settings sql = sql) ∧
    (∀ room, settings.maxSql? = some room → room < sql.utf8ByteSize →
      shorten settings sql = .shortened (cut room sql) ∧
        logged settings sql = cut room sql ++ "...") ∧
    (logged settings sql = sql ↔ settings.Fits sql ∨
      ∃ room, settings.maxSql? = some room ∧ sql = cut room sql ++ "...") ∧
    ∀ {σ α : Type} (kind : CallKind) (params : Nat) (rows : α → Nat) (call : Run σ α)
      (s : Session σ), ∃ noted : List Event, noted ≠ [] ∧
        (∀ e ∈ noted, e.sql = logged settings sql) ∧
        (observe settings kind sql params rows call s).2.events =
          (call.within settings.timeout? s).2.events ++ noted := by
  have hwhole : settings.Fits sql → logged settings sql = sql := fun h => by
    rw [logged, shorten_of_fits h, LoggedSql.text]
  have hshort : ∀ room, settings.maxSql? = some room → room < sql.utf8ByteSize →
      shorten settings sql = .shortened (cut room sql) ∧
        logged settings sql = cut room sql ++ "..." := fun room hroom h => by
    rw [logged, shorten_of_lt hroom h]
    exact ⟨rfl, rfl⟩
  refine ⟨fun room => ⟨isValid_boundary sql room, longestBeginning_cut room sql⟩,
    ⟨fun h => ?_, shorten_of_fits⟩, hwhole, hshort, ⟨fun h => ?_, ?_⟩,
    fun kind params rows => exists_events_observe settings kind sql params rows⟩
  · refine Classical.byContradiction fun hlong => ?_
    obtain ⟨room, hroom, hlt⟩ := exists_of_not_fits hlong
    rw [shorten_of_lt hroom hlt] at h
    exact absurd h (by simp)
  · by_cases hfits : settings.Fits sql
    · exact .inl hfits
    · obtain ⟨room, hroom, hlt⟩ := exists_of_not_fits hfits
      exact .inr ⟨room, hroom, h.symm.trans (hshort room hroom hlt).2⟩
  · rintro (hfits | ⟨room, hroom, heq⟩)
    · exact hwhole hfits
    · by_cases hlt : room < sql.utf8ByteSize
      · exact (hshort room hroom hlt).2.trans heq.symm
      · exact hwhole fun room' hroom' => by
          obtain rfl := Option.some.inj (hroom.symm.trans hroom')
          exact Nat.not_lt.1 hlt

/-- A limit within the second of three characters. -/
theorem logs_longest_beginning_within :
    LongestBeginning 5 "é😀x" "é" ∧ logged ⟨none, none, some 5⟩ "é😀x" = "é..." := by
  obtain ⟨hcut, -, -, hshort, -⟩ := logs_longest_beginning ⟨none, none, some 5⟩ "é😀x"
  exact ⟨(hcut 5).2, (hshort 5 rfl (by decide)).2⟩

end Monitor

end BoundSql
