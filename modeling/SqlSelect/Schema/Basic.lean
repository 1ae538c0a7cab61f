import SqlSelect.Fault
/-!
A schema: entities with distinct names, each with distinct properties.
-/

namespace SqlSelect

structure Schema where
  entities : List Entity := []

namespace Schema

def find? (s : Schema) (name : String) : Option Entity :=
  s.entities.find? (·.name == name)

def insert (s : Schema) (e : Entity) : Except Fault Schema :=
  match e.repeatedProperty? with
  -- What is wrong with the entity itself is told first.
  | some property => .error (.schema (.repeatedProperty e.name property))
  | none =>
    if (s.find? e.name).isSome then .error (.schema (.repeatedEntity e.name))
    else .ok ⟨s.entities ++ [e]⟩

def get (s : Schema) (name : String) : Except Fault Entity :=
  match s.find? name with
  | some e => .ok e
  | none => .error (.schema (.unknownEntity name))

def ofEntities (es : List Entity) : Except Fault Schema :=
  es.foldlM insert {}

end Schema

end SqlSelect
