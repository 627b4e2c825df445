import Mathlib.Data.List.Nodup
import Transparency.Json.Order
import Transparency.Record.Form

/-! The shapes of JSON forms, and the presentations of a written form.

A written form may be given in other ways: the fields of a record in any order and among others, or as an
array of their values in the order in which they are declared, and a name as the key of an object. A shape
says where in a form there are records and names, and so which values are `Presented` there: at every depth
each of these liberties may have been taken. -/
namespace Transparency

/-- What a JSON form is made of. -/
inductive Shape where
  | word
  /-- Bytes, in base64. -/
  | text
  | texts
  /-- An alternative that carries nothing. -/
  | name
  /-- A record, by the names of its fields. -/
  | fields (members : List (String × Shape))
  /-- Alternatives that carry a value each. -/
  | choice (alternatives : List (String × Shape))

namespace Shape

mutual

/-- `given` is another presentation of what is written as `written`. -/
inductive Presents : Shape → (written given : Json) → Prop where
  | word (value : Int) : Presents .word (.integer value) (.integer value)
  | text (text : String) : Presents .text (.string text) (.string text)
  | texts (items : List String) : Presents .texts (.array (items.map .string)) (.array (items.map .string))
  | name (name : String) : Presents .name (.string name) (.string name)
  | key (name : String) : Presents .name (.string name) (.object [(name, .null)])
  /-- Among `others`, in any order. -/
  | object {members : List (String × Shape)} {fields listed others given : List (String × Json)} :
      PresentsFields members fields listed → given.Perm (listed ++ others) →
        (∀ other ∈ others, other.1 ∉ members.map Prod.fst) →
          Presents (.fields members) (.object fields) (.object given)
  | array {members : List (String × Shape)} {fields listed : List (String × Json)} :
      PresentsFields members fields listed →
        Presents (.fields members) (.object fields) (.array (listed.map Prod.snd))
  | choice {alternatives : List (String × Shape)} {name : String} {shape : Shape} {written given : Json} :
      (name, shape) ∈ alternatives → Presents shape written given →
        Presents (.choice alternatives) (.object [(name, written)]) (.object [(name, given)])

/-- `listed` has the fields of `members` in their order, with other presentations of the values in
`fields`. -/
inductive PresentsFields : List (String × Shape) → (fields listed : List (String × Json)) → Prop where
  | nil : PresentsFields [] [] []
  | cons {name : String} {shape : Shape} {members : List (String × Shape)} {written given : Json}
      {fields listed : List (String × Json)} : Presents shape written given →
        PresentsFields members fields listed →
          PresentsFields ((name, shape) :: members) ((name, written) :: fields) ((name, given) :: listed)

end

/-! ### Reading fields -/

theorem PresentsFields.names {members : List (String × Shape)} {fields listed : List (String × Json)} :
    PresentsFields members fields listed → listed.map Prod.fst = members.map Prod.fst
  | .nil => rfl
  | .cons _ others => by rw [List.map_cons, List.map_cons, others.names]

end Shape

namespace Json

/-- A field is read in any order, among others. -/
theorem only?_of_perm {listed others given : List (String × Json)} (distinct : (listed.map Prod.fst).Nodup)
    (perm : given.Perm (listed ++ others)) (foreign : ∀ other ∈ others, other.1 ∉ listed.map Prod.fst)
    {field : String × Json} (member : field ∈ listed) : only? field.1 given = some field.2 := by
  have known : (listed.filter fun other => other.1 = field.1).Perm [field] := by
    refine (List.perm_ext_iff_of_nodup (distinct.of_map.filter _) (List.nodup_singleton _)).2 fun other => ?_
    rw [List.mem_filter, List.mem_singleton, decide_eq_true_iff]
    constructor
    · rintro ⟨found, same⟩
      exact List.inj_on_of_nodup_map distinct found member same
    · rintro rfl
      exact ⟨member, rfl⟩
  have unknown : (others.filter fun other => other.1 = field.1) = [] := by
    refine List.filter_eq_nil_iff.2 fun other found same => foreign other found ?_
    rw [of_decide_eq_true same]
    exact List.mem_map_of_mem member
  have one : (given.filter fun other => other.1 = field.1).Perm [field] := by
    refine (perm.filter _).trans ?_
    rw [List.filter_append, unknown, List.append_nil]
    exact known
  rw [only?, List.perm_singleton.1 one]

theorem mapM_only? {given listed : List (String × Json)}
    (found : ∀ field ∈ listed, only? field.1 given = some field.2) :
    (listed.map Prod.fst).mapM (fun name => only? name given) = some (listed.map Prod.snd) := by
  induction listed with
  | nil => rfl
  | cons field rest ih =>
    obtain ⟨here, others⟩ := List.forall_mem_cons.1 found
    simp only [List.map_cons, List.mapM_cons, here, ih others]
    rfl

/-- Fields are read in any order, among others. -/
theorem fields?_of_perm {listed others given : List (String × Json)} (distinct : (listed.map Prod.fst).Nodup)
    (perm : given.Perm (listed ++ others)) (foreign : ∀ other ∈ others, other.1 ∉ listed.map Prod.fst) :
    (Json.object given).fields? (listed.map Prod.fst) = some (listed.map Prod.snd) :=
  mapM_only? fun _ member => only?_of_perm distinct perm foreign member

end Json

namespace Shape

theorem Presents.texts_eq {written given : Json} (h : Presents .texts written given) : given = written := by
  cases h
  rfl

/-- Some values, one for each of `rows` and fit for it, satisfy `P`. -/
def ForSome {α : Type} (Fits : α → Json → Prop) : List α → (P : List Json → Prop) → Prop
  | [], P => P []
  | row :: rows, P => ∃ value, Fits row value ∧ ForSome Fits rows fun values => P (value :: values)

theorem PresentsFields.forSome {members : List (String × Shape)} {fields listed : List (String × Json)}
    {P : List Json → Prop} :
    PresentsFields members fields listed → P (listed.map Prod.snd) →
      ForSome (fun row given => Presents row.1.2 row.2.2 given) (members.zip fields) P
  | .nil, holds => holds
  | .cons presented others, holds => ⟨_, presented, others.forSome holds⟩

/-- However a record is presented, its fields are found and their values presented. -/
theorem Presents.fields? {members : List (String × Shape)} {fields : List (String × Json)} {given : Json}
    (distinct : (members.map Prod.fst).Nodup) (h : Presents (.fields members) (.object fields) given) :
    ForSome (fun row value => Presents row.1.2 row.2.2 value) (members.zip fields) fun values =>
      given.fields? (members.map Prod.fst) = some values := by
  cases h with
  | object all perm foreign =>
    refine all.forSome ?_
    rw [← all.names] at distinct foreign ⊢
    exact Json.fields?_of_perm distinct perm foreign
  | array all =>
    refine all.forSome ?_
    rw [← all.names, Json.fields?, if_pos (by rw [List.length_map, List.length_map])]

/-- However an alternative is presented, it is found and its value presented. -/
theorem Presents.alternative {alternatives : List (String × Shape)} {name : String} {shape : Shape}
    {written given : Json} (distinct : (alternatives.map Prod.fst).Nodup) (member : (name, shape) ∈ alternatives)
    (h : Presents (.choice alternatives) (.object [(name, written)]) given) :
    ∃ value, Presents shape written value ∧ given = .object [(name, value)] := by
  cases h with
  | choice other presented =>
    have same := List.inj_on_of_nodup_map distinct other member rfl
    cases same
    exact ⟨_, presented, rfl⟩

/-- What is written presents itself. -/
theorem Presents.self {members : List (String × Shape)} {fields : List (String × Json)}
    (all : PresentsFields members fields fields) : Presents (.fields members) (.object fields) (.object fields) :=
  .object all (by rw [List.append_nil]) fun _ none => absurd none List.not_mem_nil

end Shape

end Transparency
