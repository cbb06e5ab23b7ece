import MetadataStore.Proofs.Repository.Catalogue
import MetadataStore.Proofs.Session.Integrity

/-!
# `Proofs.Session.Definitions` — definitions through sessions and reopenings

A database goes through any number of sessions, one after the other, each with a catalogue of its own that
begins with nothing. As long as nobody works on it past the library, every one of them says the same of
the definitions that there are, and goes on saying it.

## Contents
- `Session.Onward`, what may happen to a database that is the library's alone.
- `Onward.informed`, `Onward.definitions_prefix`.
- `Session.definitions_consistent`, with a sample.
-/

namespace MetadataStore.Session

open MetadataStore.Repository (Informed)

variable {s t : Session}

/-- How a session goes on while its database is the library's alone: with any events, and by opening the
database again. -/
abbrev Onward : Session → Session → Prop :=
  Continues fun _ _ => True

/-- Repositories stay informed, whatever the operations are. -/
theorem invariant_informed : Invariant .all fun r => r.database.Numbered ∧ r.Informed where
  move := fun _ _ hr hmove => ⟨hmove.numbered hr.1, hmove.informed hr.1 hr.2⟩
  circumstances := fun _ _ _ hr => ⟨hr.1, hr.2.congr (.refl _) rfl⟩

/-- And no definition is ever changed or taken away. -/
theorem invariant_definitions (definitions : List AttributeInfo) :
    Invariant .all fun r => r.database.Numbered ∧ definitions <+: r.database.definitions where
  move := fun _ _ hr hmove => ⟨hmove.numbered hr.1, hr.2.trans (hmove.definitions_prefix hr.1)⟩
  circumstances := fun _ _ _ hr => hr

theorem Onward.informed (h : Onward s t)
    (hs : s.repository.database.Numbered ∧ s.repository.Informed) :
    t.repository.database.Numbered ∧ t.repository.Informed :=
  invariant_informed.continues (fun t event _ => event.answersFor_all t)
    (fun _ settings now serial hr =>
      ⟨hr.1, Repository.informed_open settings hr.2.defined now serial⟩) h hs

theorem Onward.definitions_prefix (h : Onward s t) (hs : s.repository.database.Numbered) :
    s.repository.database.definitions <+: t.repository.database.definitions :=
  ((invariant_definitions _).continues (fun t event _ => event.answersFor_all t)
    (fun _ _ _ _ hr => hr) h ⟨hs, List.prefix_rfl⟩).2

/-- **The catalogue is consistent** wherever a new database is brought by sessions and reopenings. A name
is found exactly if it is that of a definition in any case, a number if it is that of a definition, and all
definitions are listed by number; no two of them share number or name, and none is ever changed or taken
away. A defined name, when it is defined again, gives its definition if the kind is the same and is refused
if it is not, and nothing that is stored changes; a name that is not defined yet, unless it is blank, can
be, and the engine never finds a name that stands against it. -/
theorem definitions_consistent (settings : Settings) (engine : Engine) (now : DateTime) (serial : Nat)
    (hs : Onward (ofRepository (.open settings (.blank engine) now serial)) s) :
    let r := s.repository
    let definitions := r.database.definitions
    r.database.attributes = definitions.map AttributeInfo.row ∧
      (∀ name, r.Yields (Repository.infoByName name)
        (.ok (definitions.find? fun info => Text.lower info.name == Text.lower name))) ∧
      (∀ id, r.Yields (Repository.infoById id) (.ok (definitions.find? fun info => info.id == id))) ∧
      r.Yields Repository.infos (.ok (definitions.mergeSort fun a b => decide (a.id ≤ b.id))) ∧
      (definitions.map (·.id)).Nodup ∧
      (definitions.map fun info => Text.lower info.name).Nodup ∧
      (∀ t, Onward s t → definitions <+: t.repository.database.definitions) ∧
      (∀ name kind scalar info, (Text.trim name).isEmpty = false → info ∈ definitions →
        Text.lower info.name = Text.lower (Text.trim name) →
          r.Yields (Repository.define name kind scalar)
              (if info.kind = kind then .ok info else .error (.alreadyDefined info.name info.kind)) ∧
            (Fault.alreadyDefined info.name info.kind).category = .invalidParameter ∧
            ∃ catalog, (Repository.define name kind scalar r).2 = r.withCatalog catalog) ∧
      (∀ name kind scalar, (Text.trim name).isEmpty = false →
        (∀ info ∈ definitions, Text.lower info.name ≠ Text.lower (Text.trim name)) →
        r.contention.allowsWriting = true →
          ∃ id, (Repository.define name kind scalar r).1 = .ok ⟨id, Text.trim name, kind, scalar⟩ ∧
            (Repository.define name kind scalar r).2.database.definitions =
              definitions ++ [⟨id, Text.trim name, kind, scalar⟩]) ∧
      ∀ name kind scalar column,
        (Repository.define name kind scalar r).1 ≠ .error (.write (.unique column)) := by
  intro r definitions
  obtain ⟨hnumbered, h⟩ : r.database.Numbered ∧ r.Informed :=
    hs.informed ⟨.blank engine,
      Repository.informed_open settings (Database.Sound.blank engine).defined now serial⟩
  refine ⟨h.defined.rows_definitions.symm, h.infoByName, h.infoById, h.infos,
    h.defined.numbers_definitions, h.defined.names_definitions,
    fun t ht => ht.definitions_prefix hnumbered, ?_, ?_, h.define_ne_unique⟩
  · intro name kind scalar info hname hmem hlower
    obtain ⟨hyields, hkept⟩ := h.define_known hname hmem hlower kind scalar
    exact ⟨hyields, rfl, hkept⟩
  · intro name kind scalar hname hfree hwrite
    exact h.define_new hname hfree hwrite kind scalar

/-- A name with a capital beyond ASCII is defined, and the database is opened again. -/
def reopenedNames : Session :=
  let s := fresh.after (.perform (.define " Ärger " .string false))
  { s with repository := .open .inMemory s.repository.database .epoch 0 }

/-- It is found in another case, in which the engine would let it in once more. -/
theorem definitions_reopened :
    Onward fresh reopenedNames ∧
      reopenedNames.repository.database.definitions = [⟨1, "Ärger", .string, false⟩] ∧
      (Repository.infoByName "äRGER" reopenedNames.repository).1 =
        .ok (some ⟨1, "Ärger", .string, false⟩) ∧
      (Repository.define "äRGER" .integer true reopenedNames.repository).1 =
        .error (.alreadyDefined "Ärger" .string) ∧
      Text.foldAsciiText "äRGER" ≠ Text.foldAsciiText "Ärger" := by
  have honward : Onward fresh reopenedNames :=
    .reopen .inMemory .epoch 0 (.event (.perform (.define " Ärger " .string false)) .refl trivial)
  have hdefinitions : reopenedNames.repository.database.definitions = [⟨1, "Ärger", .string, false⟩] := by
    decide +kernel
  have hread : reopenedNames.repository.contention.allowsReading = true := by decide +kernel
  have hlower : Text.lower "Ärger" = Text.lower "äRGER" := by decide +kernel
  have htrim : Text.trim "äRGER" = "äRGER" := by decide +kernel
  obtain ⟨-, hname, -, -, -, -, -, hknown, -⟩ := definitions_consistent .inMemory .nearest .epoch 0 honward
  refine ⟨honward, hdefinitions, ?_, ?_, by decide +kernel⟩
  · rw [(hname "äRGER").of_reading hread, hdefinitions, List.find?_cons_of_pos (by simpa using hlower)]
  · have hinfo : (⟨1, "Ärger", .string, false⟩ : AttributeInfo) ∈
        reopenedNames.repository.database.definitions := hdefinitions ▸ List.mem_cons_self
    have hrefused := (hknown "äRGER" .integer true _ (by decide +kernel) hinfo (htrim.symm ▸ hlower)).1
    exact hrefused.of_reading hread

end MetadataStore.Session
