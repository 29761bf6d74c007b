import ShadowTrace.Json.Route

/-! # Layers

Documents are laid over one another. Objects are merged key by key; anything else, null included,
takes the place of what is below, and so does an object over something that is none. At its top
level a document may name an inner value directly: a key there is a route. -/

namespace ShadowTrace.Json

/-- The value if it is an object, else an empty one. -/
def asObject : Json → Json
  | object fields => object fields
  | _ => object []

mutual

/-- Lays a value over another. -/
def overlay (below : Json) : Json → Json
  | object fields => overlayFields below.asObject fields
  | value => value

def overlayFields (below : Json) : List (String × Json) → Json
  | [] => below
  | (key, value) :: rest =>
    overlayFields (below.withField key (overlay (below.field key) value)) rest

end

/-- Lays the entries of a document over a value, each at the end of its route. -/
def overlayEntries (below : Json) (entries : List (String × Json)) : Json :=
  entries.foldl (fun below (key, value) => modifyAt (overlay · value) (Route.ofKey key) below) below

end ShadowTrace.Json
