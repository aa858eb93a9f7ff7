import Fitting.DataDirectory
import Fitting.Proofs.Tables

/-!
# Attribute tables define no attribute twice

In a catalog the last definition of an attribute would silently take the place of the others.  So a
table is loaded only if no two of its rows define one attribute.

* `Fresh`                          rows of different attributes, none of which was seen before;
* `firstRepeated?_eq_none_iff`     the scan finds nothing in such rows only;
* `firstRepeated?_eq_some_iff`     else it finds the first row behind such rows;
* `loadAttributes_distinct`        which tables are loaded, which row is reported, and that a loaded
                                   table and its catalog have the same rows.
-/

namespace Fitting

/-- rows of different attributes, none of which was seen before -/
def Fresh (seen : List AttributeId) (rows : List AttributeDefinition) : Prop :=
  (rows.map AttributeDefinition.id).Nodup ∧ ∀ row ∈ rows, row.id ∉ seen

section
variable {seen : List AttributeId} {rows : List AttributeDefinition} {row : AttributeDefinition}

theorem fresh_nil : Fresh seen [] := ⟨List.nodup_nil, fun _ h => nomatch h⟩

theorem fresh_nil_seen : Fresh [] rows ↔ (rows.map AttributeDefinition.id).Nodup :=
  and_iff_left fun _ _ => List.not_mem_nil

theorem fresh_cons : Fresh seen (row :: rows) ↔ row.id ∉ seen ∧ Fresh (row.id :: seen) rows := by
  simp only [Fresh, List.map_cons, List.nodup_cons, List.mem_map, List.forall_mem_cons, not_exists,
    not_and]
  constructor
  · rintro ⟨⟨other, distinct⟩, new, unseen⟩
    exact ⟨new, distinct, fun r hr => List.not_mem_cons_of_ne_of_not_mem (other r hr) (unseen r hr)⟩
  · rintro ⟨new, distinct, unseen⟩
    exact ⟨⟨fun r hr => List.ne_of_not_mem_cons (unseen r hr), distinct⟩, new,
      fun r hr => List.not_mem_of_not_mem_cons (unseen r hr)⟩

theorem firstRepeated?_eq_none_iff : firstRepeated? seen rows = none ↔ Fresh seen rows := by
  induction rows generalizing seen with
  | nil => exact iff_of_true rfl fresh_nil
  | cons r rows ih =>
    rw [firstRepeated?, fresh_cons]
    by_cases h : r.id ∈ seen
    · simp [h]
    · simp [h, ih]

/-- the first row whose attribute was seen before, or is that of a row before it -/
theorem firstRepeated?_eq_some_iff : firstRepeated? seen rows = some row ↔
    ∃ before after, rows = before ++ row :: after ∧ Fresh seen before ∧
      (row.id ∈ seen ∨ row.id ∈ before.map AttributeDefinition.id) := by
  induction rows generalizing seen with
  | nil => simp [firstRepeated?]
  | cons r rows ih =>
    rw [firstRepeated?]
    by_cases h : r.id ∈ seen
    · rw [if_pos (by simpa using h)]
      constructor
      · rintro ⟨⟩
        exact ⟨[], rows, rfl, fresh_nil, .inl h⟩
      · rintro ⟨_ | ⟨b, before⟩, after, parts, fresh, -⟩
        · rw [(List.cons.inj parts).1]
        · rw [(List.cons.inj parts).1] at h
          exact absurd h (fresh_cons.mp fresh).1
    · rw [if_neg (by simpa using h), ih]
      constructor
      · rintro ⟨before, after, rfl, fresh, repeated⟩
        refine ⟨r :: before, after, rfl, fresh_cons.mpr ⟨h, fresh⟩, ?_⟩
        simpa [or_assoc, or_left_comm] using repeated
      · rintro ⟨_ | ⟨b, before⟩, after, parts, fresh, repeated⟩
        · obtain ⟨rfl, -⟩ := List.cons.inj parts
          exact absurd repeated (by simpa using h)
        · obtain ⟨rfl, rfl⟩ := List.cons.inj parts
          refine ⟨before, after, rfl, (fresh_cons.mp fresh).2, ?_⟩
          simpa [or_assoc, or_left_comm] using repeated

end

/-- A table is loaded just when its attributes are distinct, and then as it is.  Its catalog has as
many definitions as the table has rows and gives for the attribute of each row that row.  Of any
other table the first row is reported whose attribute an earlier row defines. -/
theorem loadAttributes_distinct (files : Files) (path : String) {rows : List AttributeDefinition}
    (parsed : load files path .attributes (readRon readAttributeTable?) = .ok rows) :
    (∀ loaded, loadAttributes files path = .ok loaded ↔
      (rows.map AttributeDefinition.id).Nodup ∧ loaded = rows) ∧
    (∀ loaded, loadAttributes files path = .ok loaded →
      (Catalog.ofList loaded).size = loaded.length ∧
      ∀ row ∈ loaded, (Catalog.ofList loaded).get? row.id = some row) ∧
    ∀ error, loadAttributes files path = .error error ↔
      ∃ before row after, rows = before ++ row :: after ∧
      (before.map AttributeDefinition.id).Nodup ∧ row.id ∈ before.map AttributeDefinition.id ∧
      error = .duplicateAttribute row.id row.name path := by
  have loading : loadAttributes files path =
      (firstRepeated? [] rows).elim (.ok rows) fun row =>
        .error (.duplicateAttribute row.id row.name path) := by
    unfold loadAttributes
    rw [parsed]
    simp only [bind, Except.bind]
    cases firstRepeated? [] rows <;> rfl
  have accepted : ∀ loaded, loadAttributes files path = .ok loaded ↔
      (rows.map AttributeDefinition.id).Nodup ∧ loaded = rows := by
    intro loaded
    rw [loading, ← fresh_nil_seen, ← firstRepeated?_eq_none_iff]
    cases firstRepeated? [] rows <;> simp [eq_comm]
  refine ⟨accepted, fun loaded h => ?_, fun error => ?_⟩
  · obtain ⟨distinct, rfl⟩ := (accepted loaded).mp h
    refine ⟨Map.size_lastRows distinct, fun row hr => ?_⟩
    exact (Map.lastRows_eq_some distinct).mpr ⟨row, hr, rfl, rfl⟩
  · have found : ∀ row, firstRepeated? [] rows = some row ↔
        ∃ before after, rows = before ++ row :: after ∧ (before.map AttributeDefinition.id).Nodup ∧
          row.id ∈ before.map AttributeDefinition.id := by
      intro row
      simp only [firstRepeated?_eq_some_iff, fresh_nil_seen, List.not_mem_nil, false_or]
    rw [loading]
    constructor
    · intro h
      cases hr : firstRepeated? [] rows with
      | none =>
        rw [hr] at h
        cases h
      | some row =>
        rw [hr] at h
        obtain ⟨before, after, parts, distinct, repeated⟩ := (found row).mp hr
        exact ⟨before, row, after, parts, distinct, repeated, (Except.error.inj h).symm⟩
    · rintro ⟨before, row, after, parts, distinct, repeated, rfl⟩
      rw [(found row).mpr ⟨before, after, parts, distinct, repeated⟩, Option.elim_some]

/-- a table that defines the mass twice -/
def massTwice : Files := fun _ =>
  .text "(attributes: [(attribute_id: 4, name: \"mass\"), (attribute_id: 4, name: \"massAgain\")])"

theorem loadAttributes_distinct_mass_twice :
    load massTwice "attributes.ron" .attributes (readRon readAttributeTable?) =
      .ok [.named .mass "mass", .named .mass "massAgain"] ∧
    loadAttributes massTwice "attributes.ron" =
      .error (.duplicateAttribute .mass "massAgain" "attributes.ron") := by
  have parsed : load massTwice "attributes.ron" .attributes (readRon readAttributeTable?) =
      .ok [.named .mass "mass", .named .mass "massAgain"] := rfl
  obtain ⟨-, -, reported⟩ := loadAttributes_distinct massTwice "attributes.ron" parsed
  refine ⟨parsed, (reported _).mpr
    ⟨[.named .mass "mass"], .named .mass "massAgain", [], rfl, ?_, ?_, rfl⟩⟩
  · exact List.nodup_singleton _
  · exact List.mem_singleton_self _

end Fitting
