import MetadataStore.Proofs.Action
import MetadataStore.Proofs.Time.Reading
import MetadataStore.Value

/-!
# `Proofs.Time.RoundTrip` — times through their text and back

Writing a time cuts it to milliseconds, and so does every way for an element into a vector but the raw
ones. Reading is more lenient than writing, so a text may not be the one that its time is written as. What
was read has whole milliseconds, though, and is therefore read back from its own text as it is.

## Contents
- `TimeText.exists_assemble_of_parse`, `DateTime.truncate_of_ofText`: what is read is not cut.
- `Value.exists_push`, `Value.exists_set`: elements on their way into a vector.
- `DateTime.text_round_trip`.
-/

namespace MetadataStore

namespace TimeText

/-- A time that was read was put together from its parts. -/
theorem exists_assemble_of_parse {cs : List Char} {t : DateTime} (h : parse cs = .ok t) :
    ∃ year month day hour minute second millis,
      assemble year month day hour minute second millis = .ok t := by
  unfold parse at h
  obtain ⟨⟨year, cs⟩, -, h⟩ := bind_eq_ok.1 h
  obtain ⟨⟨_, cs⟩, -, h⟩ := bind_eq_ok.1 h
  obtain ⟨⟨month, cs⟩, -, h⟩ := bind_eq_ok.1 h
  obtain ⟨⟨_, cs⟩, -, h⟩ := bind_eq_ok.1 h
  obtain ⟨⟨day, cs⟩, -, h⟩ := bind_eq_ok.1 h
  obtain ⟨⟨hour, cs⟩, -, h⟩ := bind_eq_ok.1 h
  obtain ⟨⟨_, cs⟩, -, h⟩ := bind_eq_ok.1 h
  obtain ⟨⟨minute, cs⟩, -, h⟩ := bind_eq_ok.1 h
  obtain ⟨⟨_, cs⟩, -, h⟩ := bind_eq_ok.1 h
  obtain ⟨⟨second, cs⟩, -, h⟩ := bind_eq_ok.1 h
  obtain ⟨⟨millis, cs⟩, -, h⟩ := bind_eq_ok.1 h
  simp only at h
  split at h
  · exact ⟨year, month, day, hour, minute, second, millis, h⟩
  · cases h

/-- The parts that are read have no more than milliseconds. -/
theorem truncate_of_assemble {year : Int} {month day hour minute second millis : Nat} {t : DateTime}
    (h : assemble year month day hour minute second millis = .ok t) : t.truncate = t := by
  unfold assemble at h
  split at h
  rename_i whole leap hsplit
  -- the leap second is a whole number of milliseconds more
  have hleap : nanosPerMilli ∣ leap := by
    split at hsplit
    · cases hsplit
      exact ⟨1000, rfl⟩
    · cases hsplit
      exact Nat.dvd_zero _
  split at h
  · rename_i hparts
    cases h
    obtain ⟨-, -, -, -, -, -, hnano⟩ := DateTime.ofParts?_eq_some.1 hparts
    have hcut : t.time.truncate = t.time :=
      TimeOfDay.truncate_eq_self (hnano ▸ Nat.dvd_add hleap (Nat.dvd_mul_left _ _))
    exact congrArg (DateTime.mk t.date) hcut
  · cases h

end TimeText

/-- What was read is not cut. -/
theorem DateTime.truncate_of_ofText {s : String} {t : DateTime} (h : ofText s = .ok t) :
    t.truncate = t := by
  obtain ⟨_, _, _, _, _, _, _, hparts⟩ := TimeText.exists_assemble_of_parse h
  exact TimeText.truncate_of_assemble hparts

/-! ## On the way into a vector -/

namespace Value

/-- An element of the declared kind can be pushed, and is then the last one in the form that storage
keeps. -/
theorem exists_push {value : Value} {datum : Datum} (h : datum.kind = value.kind) :
    ∃ changed, value.push datum = .ok changed ∧
      changed.elements = value.elements ++ [datum.settled] := by
  have hnew : ∀ d ∈ (Edit.add datum).operands, d.kind = value.kind := by
    intro d hd
    rw [List.mem_singleton.1 hd, h]
  unfold push edit?
  rw [dif_pos ⟨rfl, hnew⟩]
  exact ⟨_, rfl, rfl⟩

/-- Elements of the declared kind can replace all others, and are then in the form that storage
keeps. -/
theorem exists_set {value : Value} {elements : List Datum}
    (h : ∀ datum ∈ elements, datum.kind = value.kind) :
    ∃ changed, value.edit value.kind (.set elements) = .ok changed ∧
      changed.elements = elements.map Datum.settled := by
  have hnew : ∀ d ∈ (Edit.set elements).operands, d.kind = value.kind := h
  unfold edit edit?
  rw [dif_pos ⟨rfl, hnew⟩]
  exact ⟨_, rfl, rfl⟩

end Value

/-- **Times survive their text.** Every time is read back from its text cut to milliseconds, and a second
cut changes nothing. The same cut is made when times enter a vector, one by one or all together, and what
they are read back as from their cells is just what the vector holds. A time that was read from whatever
text is read back from its own text as it is. -/
theorem DateTime.text_round_trip :
    (∀ t : DateTime, ofText t.text = .ok t.truncate ∧ t.truncate.truncate = t.truncate) ∧
    (∀ (value : Value) (t : DateTime), value.kind = .time →
      ∃ changed, value.push (.time t) = .ok changed ∧
        changed.elements = value.elements ++ [.time t.truncate]) ∧
    (∀ (value : Value) (ts : List DateTime), value.kind = .time →
      ∃ changed, value.edit .time (.set (ts.map .time)) = .ok changed ∧
        changed.elements = ts.map fun t => .time t.truncate) ∧
    (∀ t : DateTime, Datum.ofCell .time (Datum.time t).toCell = .ok (.time t.truncate)) ∧
    (∀ s t, ofText s = .ok t → ofText t.text = .ok t) := by
  refine ⟨fun t => ⟨t.ofText_text, t.truncate_truncate⟩, ?_, ?_, ?_, ?_⟩
  · intro value t hkind
    exact Value.exists_push hkind.symm
  · intro value ts hkind
    have htyped : ∀ datum ∈ ts.map Datum.time, datum.kind = value.kind := by
      intro datum hmem
      obtain ⟨t, -, rfl⟩ := List.mem_map.1 hmem
      exact hkind.symm
    obtain ⟨changed, hset, helements⟩ := Value.exists_set htyped
    rw [List.map_map] at helements
    exact ⟨changed, hkind ▸ hset, helements⟩
  · intro t
    simp only [Datum.toCell, Datum.ofCell, t.ofText_text]
  · intro s t hread
    rw [t.ofText_text, truncate_of_ofText hread]

/-- The leap second at the end of June 12345, a quarter and some microseconds into it. -/
def DateTime.leapSecond12345 : DateTime :=
  ⟨⟨12345, 6, 30, by decide⟩, ⟨23, 59, 59, 1250000999, by decide⟩⟩

/-- A leap second of a year with five digits is kept to the millisecond, as is what a text with a blank
and short parts denotes. -/
theorem DateTime.leapSecond12345_round_trip :
    (Value.create .time).kind = .time ∧
    ofText leapSecond12345.text = .ok leapSecond12345.truncate ∧
    (∃ changed, (Value.create .time).push (.time leapSecond12345) = .ok changed ∧
      changed.elements = [.time leapSecond12345.truncate]) ∧
    (∃ changed, (Value.create .time).edit .time (.set [.time leapSecond12345]) = .ok changed ∧
      changed.elements = [.time leapSecond12345.truncate]) ∧
    ofText " +12345-6-30 23:59:60.250" = .ok leapSecond12345.truncate ∧
    ofText leapSecond12345.truncate.text = .ok leapSecond12345.truncate := by
  obtain ⟨hcut, hpush, hset, -, hread⟩ := text_round_trip
  have hlenient : ofText " +12345-6-30 23:59:60.250" = .ok leapSecond12345.truncate := by decide
  exact ⟨rfl, (hcut _).1, hpush (.create .time) _ rfl, hset (.create .time) [_] rfl, hlenient,
    hread _ _ hlenient⟩

end MetadataStore
