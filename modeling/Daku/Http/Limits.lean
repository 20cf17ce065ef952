import Daku.Base.Machine
import Daku.Base.Semaphore
import Daku.Http.Client

/-!
# Request limits

`LimitedTransport`, `crates/daku-core/src/servicenow.rs:71–147`, under any number of threads. An
action is what one thread does while it holds a mutex, or the answer of the inner transport;
between two of them any other thread may act. A sleeping thread is woken by a permit that is
given back, or for no reason at all.
-/

namespace Daku.Http

open Daku.Base

/-- `host_of_url` (`platform_registry.rs:99–111`). -/
def hostOfUrl (url : String) : Option String := do
  let authority ← (splitChar '/' (← (splitText "://" url)[1]?)).head?
  let host := ((splitChar '@' authority).getLast?).getD authority
  let host := match stripPrefix "[" host with
    | some bracketed => ((splitChar ']' bracketed).head?).getD ""
    | none => ((splitChar ':' host).head?).getD ""
  if host = "" then none else some host

example : hostOfUrl "https://user@acme.example.com:8443/a" = some "acme.example.com" := by
  decide +kernel

example : hostOfUrl "https://[::1]:8443/a" = some "::1" := by decide +kernel

/-- The name under which the requests of a host are counted (`servicenow.rs:89–90`). -/
def hostKey (url : String) : String := (hostOfUrl url).getD "?"

/-- The result of `inner.execute`. -/
abbrev Outcome := Except String HttpResponse

/-- Where a thread stands in `execute` (`servicenow.rs:101–106`). -/
inductive RequestPhase where
  | idle
  | acquiringGlobal (asleep : Bool)
  | keying
  | acquiringHost (asleep : Bool)
  | inFlight
  /-- The guards are dropped in reverse order. -/
  | droppingHost (outcome : Outcome)
  | droppingGlobal (outcome : Outcome)

/-- A thread, with the requests it has still to execute, the current one first. -/
structure Caller where
  phase : RequestPhase
  requests : List HttpRequest
  outcomes : List Outcome

/-- A thread that has moved on. -/
def Caller.moved (c : Caller) (phase : RequestPhase) : Caller := { c with phase }

/-- The host of the current request. -/
def Caller.key (c : Caller) : Option String := c.requests.head?.map fun r ↦ hostKey r.url

@[simp] theorem Caller.moved_phase (c : Caller) (phase : RequestPhase) :
    (c.moved phase).phase = phase := rfl
@[simp] theorem Caller.moved_requests (c : Caller) (phase : RequestPhase) :
    (c.moved phase).requests = c.requests := rfl
@[simp] theorem Caller.moved_outcomes (c : Caller) (phase : RequestPhase) :
    (c.moved phase).outcomes = c.outcomes := rfl
@[simp] theorem Caller.moved_moved (c : Caller) (first second : RequestPhase) :
    (c.moved first).moved second = c.moved second := rfl
@[simp] theorem Caller.moved_key (c : Caller) (phase : RequestPhase) :
    (c.moved phase).key = c.key := rfl

/-- The limits, and the threads that share them. -/
structure LimitedTransport (ι : Type) where
  global : Semaphore
  hosts : String → Option Semaphore
  callers : ι → Caller

/-- What a thread does next. A guard that is dropped wakes a sleeping thread, if there is one. -/
inductive LimitAction (ι : Type) where
  | execute (t : ι)
  | acquireGlobal (t : ι)
  | hostKey (t : ι)
  | acquireHost (t : ι)
  | respond (t : ι) (outcome : Outcome)
  | dropHost (t : ι) (woken : Option ι)
  | dropGlobal (t : ι) (woken : Option ι)
  /-- A wakeup nobody asked for. -/
  | wake (t : ι)

open Semaphore (Role)

/-- Where a thread stands at the global semaphore. -/
def Caller.globalRole (c : Caller) : Role :=
  match c.phase with
  | .idle => .away
  | .acquiringGlobal false => .awake
  | .acquiringGlobal true => .asleep
  | .keying | .acquiringHost _ | .inFlight | .droppingHost _ | .droppingGlobal _ => .holding

/-- Where a thread stands at the semaphore of its host. -/
def RequestPhase.hostRole : RequestPhase → Role
  | .acquiringHost false => .awake
  | .acquiringHost true => .asleep
  | .inFlight | .droppingHost _ => .holding
  | .idle | .acquiringGlobal _ | .keying | .droppingGlobal _ => .away

/-- Where a thread stands at the semaphore of a host. -/
def Caller.hostRole (host : String) (c : Caller) : Role :=
  if c.key = some host then c.phase.hostRole else .away

namespace LimitedTransport

variable {ι : Type} [DecidableEq ι]

/-- `LimitedTransport::new`, and threads that are about to start (`servicenow.rs:81–87`). -/
def new (requests : ι → List HttpRequest) : LimitedTransport ι where
  global := Semaphore.new 8
  hosts _ := none
  callers t := ⟨.idle, requests t, []⟩

variable (s : LimitedTransport ι)

/-- Move a thread on. -/
def move (t : ι) (phase : RequestPhase) : LimitedTransport ι :=
  { s with callers := Function.update s.callers t ((s.callers t).moved phase) }

/-- A sleeping thread takes the mutex again. -/
def wake (t : ι) : Option (LimitedTransport ι) :=
  match (s.callers t).phase with
  | .acquiringGlobal true => some (s.move t (.acquiringGlobal false))
  | .acquiringHost true => some (s.move t (.acquiringHost false))
  | _ => none

variable [Fintype ι]

/-- `Condvar::notify_one`: one of the sleeping threads, unless there is none. -/
def notifyOne (role : Caller → Role) (woken : Option ι) : Option (LimitedTransport ι) :=
  match woken with
  | some w => if role (s.callers w) = .asleep then s.wake w else none
  | none => if ∀ w, role (s.callers w) ≠ .asleep then some s else none

/-- One action of a thread (`servicenow.rs:101–106, 124–147`). -/
def step (a : LimitAction ι) : Option (LimitedTransport ι) :=
  match a with
  | .execute t =>
    match (s.callers t).phase, (s.callers t).requests with
    | .idle, _ :: _ => some (s.move t (.acquiringGlobal false))
    | _, _ => none
  | .acquireGlobal t =>
    match (s.callers t).phase with
    | .acquiringGlobal false =>
      if s.global.max ≤ s.global.used then some (s.move t (.acquiringGlobal true))
      else some { s.move t .keying with global := s.global.acquire }
    | _ => none
  | .hostKey t =>
    match (s.callers t).phase, (s.callers t).key with
    | .keying, some host =>
      some { s.move t (.acquiringHost false) with
        hosts := Function.update s.hosts host (some ((s.hosts host).getD (Semaphore.new 2))) }
    | _, _ => none
  | .acquireHost t =>
    match (s.callers t).phase with
    | .acquiringHost false => do
      let host ← (s.callers t).key
      let semaphore ← s.hosts host
      if semaphore.max ≤ semaphore.used then some (s.move t (.acquiringHost true))
      else some { s.move t .inFlight with
        hosts := Function.update s.hosts host (some semaphore.acquire) }
    | _ => none
  | .respond t outcome =>
    match (s.callers t).phase with
    | .inFlight => some (s.move t (.droppingHost outcome))
    | _ => none
  | .dropHost t woken =>
    match (s.callers t).phase with
    | .droppingHost outcome => do
      let host ← (s.callers t).key
      let semaphore ← s.hosts host
      { s.move t (.droppingGlobal outcome) with
        hosts := Function.update s.hosts host (some semaphore.release) }.notifyOne
          (Caller.hostRole host) woken
    | _ => none
  | .dropGlobal t woken =>
    match (s.callers t).phase with
    | .droppingGlobal outcome =>
      let c := s.callers t
      { s with
        global := s.global.release
        callers := Function.update s.callers t
          ⟨.idle, c.requests.tail, c.outcomes ++ [outcome]⟩ }.notifyOne Caller.globalRole woken
    | _ => none
  | .wake t => s.wake t

end LimitedTransport

/-- The threads as a machine. -/
def limiting (ι : Type) [DecidableEq ι] [Fintype ι] :
    Machine (LimitedTransport ι) (LimitAction ι) where
  step s a := s.step a

end Daku.Http
