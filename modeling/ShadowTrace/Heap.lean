import ShadowTrace.Heap.Object

/-! # The shadow heap

Objects are looked up by identity, and an object without an entry is concrete throughout. So an
entry is needed only for what is not concrete: unless told otherwise, storing something concrete
makes no entry. -/

namespace ShadowTrace

structure Heap where
  objects : Std.TreeMap ObjectId Object := {}
  skipConcrete : Bool := true
  denseLimit : UInt32 := 65536

namespace Heap

def object? (heap : Heap) (id : ObjectId) : Option Object := heap.objects[id]?

def contains (heap : Heap) (id : ObjectId) : Bool := heap.objects.contains id

def size (heap : Heap) : Nat := heap.objects.size

def isEmpty (heap : Heap) : Bool := heap.objects.isEmpty

def clear (heap : Heap) : Heap := { heap with objects := {} }

/-- Changes the entry of an object, starting from a concrete one if there is none and it
is `needed`. -/
def update (heap : Heap) (id : ObjectId) (needed : Bool) (change : Object → Object) : Heap :=
  match heap.object? id with
  | some object => { heap with objects := heap.objects.insert id (change object) }
  | none => if needed then { heap with objects := heap.objects.insert id (change {}) } else heap

theorem object?_update (heap : Heap) (id : ObjectId) (needed : Bool) (change : Object → Object)
    (other : ObjectId) :
    (heap.update id needed change).object? other =
      if other = id then
        (heap.object? id).elim (if needed then some (change {}) else none) (some ∘ change)
      else heap.object? other := by
  unfold update
  cases found : heap.object? id with
  | some object =>
    by_cases same : other = id
    · simp [object?, same]
    · simp [object?, Std.TreeMap.getElem?_insert, same, Ne.symm same]
  | none =>
    cases needed
    · by_cases same : other = id
      · simp [same, found]
      · simp [same]
    · by_cases same : other = id
      · simp [object?, same]
      · simp [object?, Std.TreeMap.getElem?_insert, same, Ne.symm same]

def shadow (heap : Heap) (id : ObjectId) (key : Key) : Shadow :=
  match heap.object? id with
  | some object => object.get key
  | none => .concrete

def put (heap : Heap) (id : ObjectId) (key : Key) (shadow : Shadow) : Heap :=
  heap.update id (!(shadow.isConcrete && heap.skipConcrete)) fun object =>
    object.set heap.denseLimit key shadow

/-- The flag that references to the object have. -/
def flag (heap : Heap) (id : ObjectId) : Flag :=
  match heap.object? id with
  | some object => object.flag
  | none => .concrete

def setFlag (heap : Heap) (id : ObjectId) (flag : Flag) : Heap :=
  heap.update id (!(flag.isConcrete && heap.skipConcrete)) fun object => { object with flag }

/-- The flag a shadow stands for. -/
def resolve (heap : Heap) : Shadow → Flag
  | .concrete => .concrete
  | .symbolic => .symbolic
  | .reference id => heap.flag id

/-- The flag of what is stored under the key. -/
def get (heap : Heap) (id : ObjectId) (key : Key) : Flag := heap.resolve (heap.shadow id key)

end Heap

end ShadowTrace
