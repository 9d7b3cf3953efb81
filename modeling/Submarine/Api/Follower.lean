import Submarine.Api.Address
import Submarine.Api.Exchange
import Submarine.Cache.Basic
import Submarine.Text.FormEncoded

namespace Submarine.Api

open Json

/-- One page of a listing. An empty version or token stands for none. -/
structure Page (k : Kind) where
  items : List (Object k)
  token : Option String
  version : Option String

/-- What a listing says about itself: the token of the next page and the version. -/
def Page.about : Reader (Option String × Option String) :=
  .resource <| (fun token _ version _ ↦ (token, version)) <$>
    .optional "continue" .string <*> .optional "remainingItemCount" .int64 <*>
    .optional "resourceVersion" .string <*> .optional "selfLink" .string

def Page.reader (k : Kind) : Reader (Page k) :=
  let fields : Fields (Page k) :=
    (fun about items ↦
      ⟨items.getD [], about.1.filter (· ≠ ""), about.2.filter (· ≠ "")⟩) <$>
      .withDefault "metadata" (none, none) Page.about <*>
      .required "items" (.orNull (.list (Object.reader k)))
  (Reader.gathering (maxDepth - 1) fields (pure ())).map (·.1)

inductive Line (k : Kind) where
  | applied (object : Object k)
  | deleted (object : Object k)
  | bookmark (version : String)
  | refusal (r : Refusal)

namespace Line

def bookmarkReader : Reader String :=
  let about : Reader String :=
    .record <| (fun version _ ↦ version) <$>
      .required "resourceVersion" .string <*> .withDefault "annotations" .empty .textTable
  let types : Fields (String × String) :=
    .mk <$> .required "apiVersion" .string <*> .required "kind" .string
  (Reader.gathering (maxDepth - 2) (.required "metadata" about) types).map (·.1)

abbrev Content (k : Kind) := Reader (Line k)

def content? (k : Kind) : String → Option (Content k)
  | "ADDED" | "MODIFIED" => some ((Object.reader k).map applied)
  | "DELETED" => some ((Object.reader k).map deleted)
  | "BOOKMARK" => some (bookmarkReader.map bookmark)
  | "ERROR" => some (Refusal.reader.map refusal)
  | _ => none

variable {k : Kind}

def typeReader (k : Kind) : Reader (Content k) := .oneOf (content? k)

def plainTypeReader (k : Kind) : Reader (Content k) := .scalar fun j ↦ j.string?.bind (content? k)

def isOwn (name : String) : Bool := name = "type" || name = "object"

def objectDepth : Nat := maxDepth - 1

/-- Type and object, in either order; an object that stands first has to be held until the type is
known. -/
def ofMembers? (k : Kind) (members : Members) : Option (Line k) :=
  match members.filter fun m ↦ isOwn m.1 with
  | [("type", type), ("object", content)] => do (← (typeReader k).read? type).read? content
  | [("object", content), ("type", type)] => do
    guard (content.isSound objectDepth)
    (← (typeReader k).read? type).read? content
  | _ => none

def admitsObject (k : Kind) (type : Json) (told : Fragment) : Bool :=
  ((typeReader k).read? type).any (·.admits told)

def admitsMembers (k : Kind) (members : Members) (next : Option (Option String × Fragment)) :
    Bool :=
  let next? : Option (String × Fragment) := do
    let (name?, told) ← next
    let name ← name?
    if isOwn name then some (name, told) else none
  match members.filter fun m ↦ isOwn m.1, next? with
  | [], none => true
  | [], some ("type", told) => (typeReader k).admits told
  | [], some (_, told) => told.isSound objectDepth
  | [("type", type)], none => (typeReader k).accepts type
  | [("type", type)], some ("object", told) => admitsObject k type told
  | [("object", content)], none => content.isSound objectDepth
  | [("object", content)], some ("type", told) =>
    content.isSound objectDepth && (typeReader k).admits told
  | [_, _], none => (ofMembers? k members).isSome
  | _, _ => false

def reader (k : Kind) : Reader (Line k) where
  read?
    | .object members => ofMembers? k members
    | .array [type, content] => do (← (plainTypeReader k).read? type).read? content
    | _ => none
  admits
    | .object members next => admitsMembers k members next
    | .array [] next => next.all (plainTypeReader k).admits
    | .array [type] next =>
      ((plainTypeReader k).read? type).any fun r ↦ next.all r.admits
    | .array [type, content] none =>
      ((plainTypeReader k).read? type).any (·.accepts content)
    | .array _ _ => false
    | told => told.isScalar

end Line

/-- The lines of a text. A line may also end in a carriage return. -/
def linesOf (text : String) : List String :=
  ((text.splitOn "\n").map fun line ↦
    if line.endsWith "\x0d" then (line.dropEnd 1).toString else line).filter (· ≠ "")

inductive Follower (k : Kind) where
  | start
  -- The rest of a page, the token of the next page and the version of the listing.
  | listing (page : List (Object k)) (token version : Option String)
  | listed (version : String)
  -- What is left of the changes since the version.
  | following (version : String) (lines : List String)

def maxPage : Nat := 500

def watchSeconds : Nat := 290

def listRequest (k : Kind) (ns : Option String) (token : Option String) : Request where
  method := .get
  uri := k.collection ns ++ "?&limit=" ++ toString maxPage ++
    (match token with
      | some token => "&continue=" ++ Text.FormEncoded.encode token
      | none => "")

def watchRequest (k : Kind) (ns : Option String) (version : String) : Request where
  method := .get
  uri := k.collection ns ++ "?&watch=true&timeoutSeconds=" ++ toString watchSeconds ++
    "&allowWatchBookmarks=true&resourceVersion=" ++ Text.FormEncoded.encode version

abbrev Told (k : Kind) := Except ApiError (WatchEvent k)

namespace Follower

variable {k : Kind}

def failure (detail : String) : Option (Told k) := some (.error (.watch detail))

/-- A change moves the version to that of its object; without one there is nothing to go on from. -/
def change (event : Object k → WatchEvent k) (o : Object k) (lines : List String) :
    Option (Told k) × Follower k :=
  match o.metadata.resourceVersion.filter (· ≠ "") with
  | some version => (some (.ok (event o)), .following version lines)
  | none => (failure "an object has no version", .start)

/-- Reads a line. One that is cut off is passed over if all went well so far, and only a refusal
that says that the version is gone starts all over. -/
def readLine (version line : String) (lines : List String) : Option (Told k) × Follower k :=
  let rest : Follower k := .following version lines
  match Json.read line with
  | .error (.cutOff told) =>
    (if (Line.reader k).admits told then none else failure "a line cannot be decoded", rest)
  | .error .malformed => (failure "a line is malformed", rest)
  | .ok j =>
    match (Line.reader k).read? j with
    | some (.applied o) => change .applied o lines
    | some (.deleted o) => change .deleted o lines
    | some (.bookmark version) => (none, .following version lines)
    | some (.refusal r) => (failure r.message, if r.code = 410 then .start else rest)
    | none => (failure "a line cannot be decoded", rest)

def step (w : Follower k) (ns : Option String) (s : Server) :
    Option (Told k) × Follower k × Server :=
  match w with
  | start => (some (.ok .relistStarted), .listing [] none none, s)
  | listing (o :: page) token version => (some (.ok (.listed o)), .listing page token version, s)
  | listing [] none (some version) => (some (.ok .relistDone), .listed version, s)
  | listing [] token _ =>
    match s.ask (listRequest k ns token) (Page.reader k) with
    | (.ok page, s) =>
      if page.token.isNone && page.version.isNone then
        (failure "the listing has no version", .start, s)
      else (none, .listing page.items page.token page.version, s)
    | (.error _, s) => (failure "the listing failed", .start, s)
  | listed version =>
    match s.send (watchRequest k ns version) with
    | (some r, s) => (none, .following version (linesOf r.body), s)
    | (none, s) => (failure "the watch cannot start", .listed version, s)
  | following version (line :: lines) =>
    let (told, w) := readLine version line lines
    (told, w, s)
  | following version [] => (none, .listed version, s)

def unread : Follower k → Nat
  | following _ lines => lines.length + 1
  | _ => 0

variable {ns : Option String} {s s' : Server} {w w' : Follower k}

theorem readLine_eq_following {version line : String} {lines : List String}
    (h : readLine version line lines = (none, w)) : ∃ v, w = .following v lines := by
  unfold readLine at h
  grind [change, failure]

/-- A step that tells nothing has taken a response or a line. -/
theorem measure_lt_of_step (h : w.step ns s = (none, w', s')) :
    s'.responses.length < s.responses.length ∨ s' = s ∧ w'.unread < w.unread := by
  cases w with
  | start => simp [step] at h
  | listed version =>
    simp only [step] at h
    split at h
    · rename_i heq
      simp only [Prod.mk.injEq] at h
      exact .inl (h.2.2 ▸ Server.length_responses_of_send heq)
    · simp [failure] at h
  | following version lines =>
    cases lines with
    | nil =>
      simp only [step, Prod.mk.injEq] at h
      obtain ⟨-, rfl, rfl⟩ := h
      exact .inr ⟨rfl, by simp [unread]⟩
    | cons line lines =>
      simp only [step, Prod.mk.injEq] at h
      obtain ⟨hnone, hw, rfl⟩ := h
      obtain ⟨v, hv⟩ := readLine_eq_following (Prod.ext hnone hw)
      exact .inr ⟨rfl, by simp [hv, unread]⟩
  | listing page token version =>
    cases page with
    | cons o page => simp [step] at h
    | nil =>
      unfold step at h
      split at h <;> try simp_all [failure]
      split at h
      · rename_i heq
        split at h
        · simp at h
        · simp only [Prod.mk.injEq] at h
          exact .inl (h.2.2 ▸ Server.length_responses_of_ask heq)
      · simp at h

def next (w : Follower k) (ns : Option String) (s : Server) : Told k × Follower k × Server :=
  match _h : w.step ns s with
  | (some told, w, s) => (told, w, s)
  | (none, w, s) => w.next ns s
termination_by (s.responses.length, w.unread)
decreasing_by
  rcases measure_lt_of_step _h with hlt | ⟨rfl, hlt⟩
  · exact Prod.Lex.left _ _ hlt
  · exact Prod.Lex.right _ hlt

def take (w : Follower k) (ns : Option String) (s : Server) :
    Nat → List (Told k) × Follower k × Server
  | 0 => ([], w, s)
  | n + 1 =>
    let (told, w, s) := w.next ns s
    let (rest, w, s) := w.take ns s n
    (told :: rest, w, s)

end Follower

end Submarine.Api
