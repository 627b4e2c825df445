import Transparency.Proofs.Presentation
import Transparency.Proofs.Pretty
import Transparency.Record.Report

/-! A report tells which record it is of.

What is reported of a record presents its JSON form: the keys of every object are sorted and there may be one
more, with the text of the time. So the record is read back from it, and no two records have one report
(`reports_injective`). -/
namespace Transparency

/-! ### Sorted keys -/

namespace Json

theorem insertField_perm (field : String × Json) (fields : List (String × Json)) :
    (insertField field fields).Perm (field :: fields) := by
  induction fields with
  | nil => exact .refl _
  | cons other rest ih =>
    unfold insertField
    split
    · exact .refl _
    · exact (ih.cons other).trans (.swap field other rest)

/-- A field with the keys in its value sorted. -/
def sortedField (field : String × Json) : String × Json := (field.1, field.2.sorted)

theorem sortedItems_eq_map (items : List Json) : sortedItems items = items.map sorted := by
  induction items with
  | nil => rfl
  | cons item rest ih => rw [sortedItems, ih, List.map_cons]

theorem sortedFields_perm (fields : List (String × Json)) :
    (sortedFields fields).Perm (fields.map sortedField) := by
  induction fields with
  | nil => exact .refl _
  | cons field rest ih => exact (insertField_perm _ _).trans (ih.cons _)

end Json

namespace Shape

mutual

/-- Sorting the keys leaves a presentation. -/
theorem Presents.sorted : ∀ {shape : Shape} {written given : Json},
    Presents shape written given → Presents shape written given.sorted
  | _, _, _, .word value => .word value
  | _, _, _, .text s => .text s
  | _, _, _, .texts items => by
    rw [Json.sorted, Json.sortedItems_eq_map, List.map_map]
    exact .texts items
  | _, _, _, .name s => .name s
  | _, _, _, .key s => .key s
  | _, _, _, .object all perm foreign => by
    refine .object all.sorted ((Json.sortedFields_perm _).trans (List.map_append ▸ perm.map Json.sortedField)) ?_
    intro other member
    obtain ⟨field, inOthers, rfl⟩ := List.mem_map.1 member
    exact foreign field inOthers
  | _, _, _, @Presents.array _ _ listed all => by
    have values : Json.sortedItems (listed.map Prod.snd) = (listed.map Json.sortedField).map Prod.snd := by
      rw [Json.sortedItems_eq_map, List.map_map, List.map_map]
      rfl
    rw [Json.sorted, values]
    exact .array all.sorted
  | _, _, _, .choice alternative presented => .choice alternative presented.sorted

theorem PresentsFields.sorted : ∀ {members : List (String × Shape)} {fields listed : List (String × Json)},
    PresentsFields members fields listed → PresentsFields members fields (listed.map Json.sortedField)
  | _, _, _, .nil => .nil
  | _, _, _, .cons presented others => .cons presented.sorted others.sorted

end

/-- So does the time, where no field has its name. -/
theorem Presents.withTime {members : List (String × Shape)} {written given : Json}
    (h : Presents (.fields members) written given) (millis : UInt64) (free : "time" ∉ members.map Prod.fst) :
    Presents (.fields members) written (given.withTime millis) := by
  cases h with
  | @object _ _ listed others given all perm foreign =>
    rw [Json.withTime]
    cases Time.format? millis with
    | none => exact .object all perm foreign
    | some time =>
      have added : (given ++ [("time", Json.string time)]).Perm
          (listed ++ (others ++ [("time", .string time)])) := by
        rw [← List.append_assoc]
        exact perm.append_right _
      refine .object all added fun other member => ?_
      rcases List.mem_append.1 member with old | new
      · exact foreign other old
      · rw [List.mem_singleton.1 new]
        exact free
  | array all => exact .array all

end Shape

/-! ### Reports -/

/-- What is reported of a record is read as that record. -/
theorem RoundTrips.reported {α : Type} {members : List (String × Shape)} {write : α → Json}
    {read : Json → Option α} (h : RoundTrips (.fields members) write read) (value : α) (millis : UInt64)
    (free : "time" ∉ members.map Prod.fst) : read ((write value).withTime millis).sorted = some value :=
  h.presented ((h.self value).withTime millis free).sorted

/-- So a text is reported of one record at most, with whichever time, or without. -/
theorem RoundTrips.report_cancel {α : Type} {members : List (String × Shape)} {write : α → Json}
    {read : Json → Option α} (h : RoundTrips (.fields members) write read)
    (free : "time" ∉ members.map Prod.fst) {a b : α} {millis millis' : UInt64}
    (same : ((write a).withTime millis).sorted.pretty = ((write b).withTime millis').sorted.pretty) : a = b := by
  have read := h.reported a millis free
  rw [Json.pretty_injective same, h.reported b millis' free] at read
  exact (Option.some.inj read).symm

theorem Sct.report_injective : Function.Injective report := fun _ _ same =>
  roundTrips.report_cancel (by decide) same

theorem Leaf.report_injective : Function.Injective report := fun _ _ same =>
  roundTrips.report_cancel (by decide) same

def LogEntry.shape : Shape := .fields [("merkleTreeLeaf", Leaf.shape), ("logEntry", Chain.shape)]

/-- The leaf and the chain of an entry are read back from its report. -/
theorem LogEntry.reported (e : LogEntry) : ∃ leaf chain,
    (e.toJson.withTime e.leaf.timestampedEntry.timestamp).sorted.fields? ["merkleTreeLeaf", "logEntry"] =
      some [leaf, chain] ∧ Leaf.ofJson? leaf = some e.leaf ∧ Chain.ofJson? chain = some e.chain := by
  have self : shape.Presents e.toJson e.toJson :=
    .self <| .cons (Leaf.roundTrips.self _) <| .cons (Chain.roundTrips.self _) .nil
  obtain ⟨leaf, leafPresented, chain, chainPresented, fields⟩ :=
    ((self.withTime e.leaf.timestampedEntry.timestamp (by decide)).sorted).fields? (by decide)
  exact ⟨leaf, chain, fields, Leaf.roundTrips.presented leafPresented,
    Chain.roundTrips.presented chainPresented⟩

theorem LogEntry.report_injective : Function.Injective report := by
  intro a b same
  obtain ⟨leaf, chain, fields, leafA, chainA⟩ := a.reported
  obtain ⟨leaf', chain', fields', leafB, chainB⟩ := b.reported
  rw [Json.pretty_injective same, fields'] at fields
  cases fields
  obtain ⟨_, _, agreeA⟩ := a
  obtain ⟨_, _, agreeB⟩ := b
  cases leafA.symm.trans leafB
  cases chainA.symm.trans chainB
  rfl

/-- A proof is reported as it is written: its keys are not sorted, and it has no time. -/
theorem AuditProof.report_injective : Function.Injective report := by
  intro a b same
  have read := roundTrips.presented (roundTrips.self a)
  rw [Json.pretty_injective same, roundTrips.presented (roundTrips.self b)] at read
  exact (Option.some.inj read).symm

/-- **A report tells which record it is of**, whether its timestamp has a text or not. -/
theorem reports_injective : Function.Injective Sct.report ∧ Function.Injective Leaf.report ∧
    Function.Injective LogEntry.report ∧ Function.Injective AuditProof.report :=
  ⟨Sct.report_injective, Leaf.report_injective, LogEntry.report_injective, AuditProof.report_injective⟩

/-- The last timestamp that has a text, and the next, which has none: the second report lacks the time. -/
theorem reports_injective_last_time :
    let leaf (millis : UInt64) : Leaf := ⟨.v1, millis, .x509 []⟩
    Time.format? 8210266876799999 = some "+262142-12-31T23:59:59.999Z" ∧
      Time.format? 8210266876800000 = none ∧
        (leaf 8210266876799999).report ≠ (leaf 8210266876800000).report := by
  intro leaf
  refine ⟨by decide +kernel, by decide +kernel, fun same => ?_⟩
  have records : leaf 8210266876799999 = leaf 8210266876800000 := reports_injective.2.1 same
  exact absurd records (by decide)

end Transparency
