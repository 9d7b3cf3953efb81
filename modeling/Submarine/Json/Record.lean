import Submarine.Json.Reader

namespace Submarine.Json

def record (members : List (String × Option Json)) : Json :=
  object (members.filterMap fun m ↦ m.2.map fun j ↦ (m.1, j))

def ofTable {α : Type} (write : α → Json) (t : Table String α) : Json :=
  object (t.entries.map fun e ↦ (e.1, write e.2))

abbrev ofTexts : List String → Json := ofList string

abbrev ofTextTable : Table String String → Json := ofTable string

namespace Members

def shadowed : Members → Members
  | [] => []
  | m :: rest => if rest.any (·.1 = m.1) then m :: shadowed rest else shadowed rest

def latest : Members → Members
  | [] => []
  | m :: rest => if rest.any (·.1 = m.1) then latest rest else m :: latest rest

end Members

structure Field where
  name : String
  accepts : Json → Bool
  admits : Fragment → Bool

structure Fields (α : Type) where
  known : List Field
  read? : Members → Option α

namespace Fields

instance : Applicative Fields where
  pure a := ⟨[], fun _ ↦ some a⟩
  map f x := ⟨x.known, fun m ↦ (x.read? m).map f⟩
  seq f x := ⟨f.known ++ (x ()).known, fun m ↦ (f.read? m).bind fun g ↦ ((x ()).read? m).map g⟩

variable {α β : Type}

/-- The member of that name, with what it reads as where it is missing. -/
def member (name : String) (r : Reader α) (missing : Option α) : Fields α where
  known := [⟨name, r.accepts, r.admits⟩]
  read? m := (m.lookup name).elim missing r.read?

def required (name : String) (r : Reader α) : Fields α := member name r none

/-- A missing member reads as the given value, a null is read like any value. -/
def withDefault (name : String) (value : α) (r : Reader α) : Fields α := member name r (some value)

def optional (name : String) (r : Reader α) : Fields (Option α) := member name r.orNull (some none)

def orElse (name : String) (value : α) (r : Reader α) : Fields α :=
  (·.getD value) <$> optional name r

def text (name : String) : Fields String := orElse name "" .string

def field? (f : Fields α) (name : String) : Option Field := f.known.find? (·.name = name)

/-- An unknown member is accepted whatever it is. -/
def accepts (f : Fields α) (m : String × Json) : Bool := (f.field? m.1).all (·.accepts m.2)

def admits (f : Fields α) (next : Option (Option String × Fragment)) : Bool :=
  match next with
  | some (some name, told) => (f.field? name).all (·.admits told)
  | _ => true

def repeats (f : Fields α) (names : List String) : Bool :=
  f.known.any fun k ↦ 1 < names.count k.name

/-- The items of an array as members, in the order in which they are known. -/
def positional (f : Fields α) (items : List Json) : Members := (f.known.map (·.name)).zip items

end Fields

namespace Reader

variable {α : Type}

/-- Records of the API itself: of a repeated member the last counts, though each is read. -/
def resource (f : Fields α) : Reader α where
  read?
    | object m => if (Members.shadowed m).all f.accepts then f.read? (Members.latest m) else none
    | _ => none
  admits
    | .object m next => m.all f.accepts && f.admits next
    | told => told.isScalar

/-- Records in which no member is repeated. They may also be given as an array, from which members
at the end can be missing unless it has to be complete. -/
def record (f : Fields α) (isComplete : Bool := false) : Reader α where
  read?
    | object m => if f.repeats (m.map (·.1)) then none else f.read? m
    | array items =>
      if items.length = f.known.length ∨ (items.length < f.known.length ∧ !isComplete) then
        f.read? (f.positional items)
      else none
    | _ => none
  admits
    | .object m next => !f.repeats (Fragment.names m next) && m.all f.accepts && f.admits next
    | .array items next =>
      items.length ≤ f.known.length &&
        ((f.known.zip items).all fun k ↦ k.1.accepts k.2) &&
        next.all fun told ↦ (f.known[items.length]?).any (·.admits told)
    | told => told.isScalar

/-- Records that take in the members that they do not know, so that these have to be sound to the
given depth. The second fields are only read once the whole record is there. -/
def gathering {β : Type} (depth : Nat) (f : Fields α) (late : Fields β) : Reader (α × β) where
  read?
    | object m =>
      if f.repeats (m.map (·.1)) || late.repeats (m.map (·.1)) ||
          !areSoundMembers depth (m.filter fun m ↦ (f.field? m.1).isNone) then none
      else (f.read? m).bind fun a ↦ (late.read? m).map fun b ↦ (a, b)
    | _ => none
  admits
    | .object m next =>
      !f.repeats (Fragment.names m next) && m.all f.accepts && f.admits next &&
        areSoundMembers depth (m.filter fun m ↦ (f.field? m.1).isNone) &&
        match next with
        | some (some name, told) => (f.field? name).isSome || told.isSound depth
        | _ => true
    | told => told.isScalar

end Reader

end Submarine.Json
