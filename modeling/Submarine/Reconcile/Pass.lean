import Submarine.Event
import Submarine.Failure

namespace Submarine

inductive Request where
  | cachedRoot (ns name : String)
  | get (k : Kind) (ns name : String)
  | create (k : Kind) (object : Object k)
  | update (k : Kind) (object : Object k)
  | updateStatus (k : Kind) (object : Object k)
  | publish (event : Event)
  | now

namespace Request

def Answer : Request → Type
  | cachedRoot _ _ => Option Root
  | get k _ _ | create k _ | update k _ | updateStatus k _ => Except ApiError (Object k)
  | publish _ => Unit
  | now => Time.Instant

def isWrite : Request → Bool
  | create _ _ | update _ _ | updateStatus _ _ => true
  | cachedRoot _ _ | get _ _ _ | publish _ | now => false

end Request

inductive Pass (α : Type) where
  | done (value : α)
  | fail (failure : Failure)
  | ask (request : Request) (next : request.Answer → Pass α)

namespace Pass

variable {α β : Type}

def bind : Pass α → (α → Pass β) → Pass β
  | done a, f => f a
  | fail e, _ => fail e
  | ask r next, f => ask r fun answer ↦ (next answer).bind f

instance : Monad Pass where
  pure := done
  bind := bind

def request (r : Request) : Pass r.Answer := ask r done

def call (r : Request) (h : r.Answer = Except ApiError α) : Pass α :=
  ask r fun answer ↦ match (h ▸ answer : Except ApiError α) with
    | .ok a => done a
    | .error e => fail (.cluster e)

/-- `Trace p asked result` holds if the pass can end with that result after those requests and
answers. -/
inductive Trace : Pass α → List ((r : Request) × r.Answer) → Except Failure α → Prop where
  | done (a : α) : Trace (done a) [] (.ok a)
  | fail (e : Failure) : Trace (fail e) [] (.error e)
  | ask {r : Request} {next : r.Answer → Pass α} {asked : List ((r : Request) × r.Answer)}
      {result : Except Failure α} (answer : r.Answer) (rest : Trace (next answer) asked result) :
      Trace (ask r next) (⟨r, answer⟩ :: asked) result

end Pass

end Submarine
