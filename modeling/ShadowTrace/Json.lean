/-! # JSON values

Numbers are integers of any size or floating-point words; the fields of an object keep the order
they are given in. -/

namespace ShadowTrace

/-- No key is there twice, and all values are as said. -/
structure Keyed {α : Type} (P : α → Prop) (entries : List (String × α)) : Prop where
  keys : (entries.map (·.1)).Nodup
  each : ∀ entry ∈ entries, P entry.2

inductive Json where
  | null
  | bool (truth : Bool)
  | int (number : Int)
  | single (word : UInt32)
  | double (word : UInt64)
  | string (text : String)
  | array (items : List Json)
  | object (fields : List (String × Json))

namespace Json

instance : Inhabited Json := ⟨null⟩

def isObject : Json → Bool
  | object _ => true
  | _ => false

/-- No object outside arrays has a key twice. -/
inductive Distinct : Json → Prop where
  | flat (value : Json) (flat : value.isObject = false) : Distinct value
  | object (fields : List (String × Json)) (keys : (fields.map (·.1)).Nodup)
    (each : ∀ field ∈ fields, Distinct field.2) : Distinct (object fields)

/-- The fields with one of them set, in its place if it was there. -/
def setField (key : String) (value : Json) : List (String × Json) → List (String × Json)
  | [] => [(key, value)]
  | field :: rest =>
    if field.1 = key then (key, value) :: rest else field :: setField key value rest

theorem lookup_setField (key other : String) (value : Json) (fields : List (String × Json)) :
    (setField key value fields).lookup other = if other = key then some value
      else fields.lookup other := by
  induction fields with
  | nil =>
    by_cases same : other = key
    · simp [setField, same]
    · simp [setField, List.lookup_cons, same, beq_false_of_ne same]
  | cons field rest ih =>
    obtain ⟨name, old⟩ := field
    simp only [setField]
    split
    · next found =>
      subst found
      by_cases same : other = name
      · simp [same]
      · simp [List.lookup_cons, same, beq_false_of_ne same]
    · next missing =>
      simp only [List.lookup_cons, ih]
      by_cases same : other = key
      · simp [same, beq_false_of_ne (Ne.symm missing)]
      · simp [same]

end Json

end ShadowTrace
