import JudgeIt.Async.Pool
import JudgeIt.Js.Text

/-!
# The cache service

`CacheService.getOrSet` answers from the cache, or else waits for a promise that fetches the value
and stores it. The promises that have not settled yet are kept in a map, so that callers who miss
while a fetch is under way wait for that one.

Two kinds of programs run concurrently: the calls of `getOrSet`, and the promise chains they create.
The second are a pool over the map; the first are a pool over the second. Looking into the map,
calling `fetchFn` and entering the promise happen without an await in between, so they are one call
of `getOrSet`, and what it is answered with is the number of a chain. The cache itself answers reads
as it likes.
-/

namespace JudgeIt

open Async

/-- The arguments of `getOrSet`, with fetch functions of type `F`. -/
structure GetOrSet (F : Type) where
  key : JsString
  fetchFn : F
  ttl : Option ℕ

variable {F V E : Type}

/-! ## The promise chain -/

/-- What a promise chain waits for. -/
inductive FetchCall (F V : Type)
  /-- `fetchFn()`. -/
  | fetchFn (fetchFn : F)
  /-- `this.cache.set(key, value, ttl)`. -/
  | cacheSet (key : JsString) (value : Option V) (ttl : Option ℕ)
  /-- `this.inFlight.delete(key)`. -/
  | inFlightDelete (key : JsString)

/-- The responses; `null` is `none`. -/
abbrev FetchCall.Res (V E : Type) : FetchCall F V → Type
  | fetchFn _ => Except E (Option V)
  | cacheSet _ _ _ => Except E Unit
  | inFlightDelete _ => Unit

/-- A promise chain. -/
abbrev Fetch (F V E α : Type) := Program (FetchCall.Res (F := F) V E) E α

namespace CacheService

/-- `set(key, value, ttl)`. -/
def set (key : JsString) (value : Option V) (ttl : Option ℕ) : Fetch F V E Unit :=
  (Program.request (FetchCall.cacheSet key value ttl)).bind Program.ofExcept

/-- `fetchFn().then(…).catch(…).finally(…)`. -/
def fetchChain (x : GetOrSet F) : Fetch F V E (Option V) :=
  ((((Program.request (FetchCall.fetchFn x.fetchFn)).bind Program.ofExcept).bind fun data ↦
      match data with
      | some _ => (set x.key data x.ttl).bind fun _ ↦ .pure data
      | none => .pure data).tryCatch fun error ↦ .throw error).tryFinally
    (Program.request (FetchCall.inFlightDelete x.key))

end CacheService

/-- The promise chains, over the map of those that are in flight. -/
abbrev Flights (F V E : Type) :=
  Pool (GetOrSet F) (FetchCall.Res (F := F) V E) E (Option V) (JsString → Option ℕ)

/-- How a call of a chain is answered: only `delete` touches the map. -/
def FetchAnswers : Env (JsString → Option ℕ) (FetchCall.Res (F := F) V E) :=
  fun inFlight op _ inFlight' ↦ match op with
  | .inFlightDelete key => inFlight' = Function.update inFlight key none
  | _ => inFlight' = inFlight

/-! ## The callers -/

/-- What `getOrSet` waits for. -/
inductive CacheCall (F : Type)
  /-- `this.cache.get(key)`. -/
  | cacheGet (key : JsString)
  /-- The promise in flight for the key, or else a new one. -/
  | flight (x : GetOrSet F)
  /-- The promise with this number. -/
  | promise (c : ℕ)

/-- The responses; a miss is `none`. -/
abbrev CacheCall.Res (V E : Type) : CacheCall F → Type
  | cacheGet _ => Except E (Option V)
  | flight _ => ℕ
  | promise _ => Except E (Option V)

/-- A call of the cache service. -/
abbrev Caching (F V E α : Type) := Program (CacheCall.Res (F := F) V E) E α

namespace CacheService

/-- `get(key)`. -/
def get (key : JsString) : Caching F V E (Option V) :=
  (Program.request (CacheCall.cacheGet key)).bind Program.ofExcept

/-- `getOrSet(key, fetchFn, ttl)`. -/
def getOrSet (x : GetOrSet F) : Caching F V E (Option V) :=
  (get x.key).bind fun
    | some value => .pure (some value)
    | none => (Program.request (CacheCall.flight x)).bind fun c ↦
      (Program.request (CacheCall.promise c)).bind Program.ofExcept

/-- How a call of `getOrSet` is answered. -/
def Answers : Env (Flights F V E) (CacheCall.Res (F := F) V E) := fun flights op r flights' ↦
  match op, r with
  | .cacheGet _, _ => flights' = flights
  | .flight x, c =>
    if (flights.shared x.key).isSome then flights.shared x.key = some c ∧ flights' = flights
    else c = flights.processes.length ∧ flights' =
      { flights.accepted fetchChain x with
        shared := Function.update flights.shared x.key (some c) }
  | .promise c, out => flights' = flights ∧
    ∃ chain, flights.processes[c]? = some chain ∧ chain.rest = .ofExcept out

end CacheService

/-! ## The service -/

/-- The calls of `getOrSet`, over the promise chains. -/
abbrev Caches (F V E : Type) :=
  Pool (GetOrSet F) (CacheCall.Res (F := F) V E) E (Option V) (Flights F V E)

namespace Caches

/-- No call yet. -/
def initial : Caches F V E := ⟨[], [], fun _ ↦ none⟩

/-- A step of a caller, or a call of a chain that is answered. -/
inductive Action (F V E : Type)
  | caller (a : Pool.Action (GetOrSet F) (CacheCall.Res (F := F) V E))
  | chain (c : ℕ) (event : Event (FetchCall.Res (F := F) V E))

/-- The steps of the service. -/
inductive Step : Caches F V E → Action F V E → Caches F V E → Prop
  | caller {s s' : Caches F V E} {a : Pool.Action (GetOrSet F) (CacheCall.Res (F := F) V E)} :
      Pool.Step CacheService.getOrSet CacheService.Answers s a s' → Step s (.caller a) s'
  | chain {s : Caches F V E} {flights : Flights F V E} {c : ℕ}
      {event : Event (FetchCall.Res (F := F) V E)} :
      Pool.Step CacheService.fetchChain FetchAnswers s.shared (.answer c event) flights →
      Step s (.chain c event) { s with shared := flights }

end Caches

end JudgeIt
