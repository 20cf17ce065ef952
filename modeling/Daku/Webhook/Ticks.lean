import Daku.Base.Machine
import Daku.Webhook.Daemon
import Daku.Webhook.Urls
import Daku.Wire.Message

/-!
# Relay threads

Every publish may start a thread that relays (`crates/daku-core/src/collector.rs:777–785`), and
`relay_tick_with` of `crates/daku-core/src/webhook.rs:204–246` decides whether it does: it reads
the URL from the settings as they are by then, refuses one that is not allowed, and stands back
while another thread has the `in_flight` flag. Threads take their steps in any order, next to the
statements of everybody else.
-/

namespace Daku.Webhook

open Daku.Base Daku.Base.Prog Daku.Store Daku.Wire

/-- `configured_url`, of what `settings.json` is read as (`webhook.rs:188–198`). -/
def configuredUrl (settings : DaemonSettings) : Option String :=
  (settings.webhookUrl.map trim).filter fun url ↦ url ≠ ""

/-- `refusal_line` (`webhook.rs:128–133`). -/
def refusalLine (url : String) : String :=
  s!"daku webhook refused (loopback http or any https only): {redactedUrl url}"

/-- The host that an `https` URL is reviewed by (`webhook.rs:81–98`). -/
def reviewedHost (authority : String) : String :=
  toAsciiLowercase <|
    match stripPrefix "[" authority with
    | some bracketed => (splitChar ']' bracketed).headD ""
    | none => (splitChar ':' (((splitChar '@' authority).getLast?).getD "")).headD ""

/-- Hosts of an intranet or of cloud metadata (`webhook.rs:99–112`). -/
def isPrivateHost (host : String) : Bool :=
  host = "localhost" || (stripPrefix "10." host).isSome || (stripPrefix "192.168." host).isSome ||
    (stripPrefix "169.254." host).isSome || host = "169.254.169.254" ||
    (stripPrefix "metadata." host).isSome || host = "metadata.google.internal" ||
    (stripPrefix "fc" host).isSome || (stripPrefix "fd" host).isSome ||
    (stripPrefix "fe80" host).isSome ||
    (stripPrefix "172." host).any fun rest ↦
      ((parseU32 ((splitChar '.' rest).headD "")).filter fun n ↦ n < 2 ^ 8).any fun second ↦
        16 ≤ second && second ≤ 31

/-- `webhook_url_needs_review` (`webhook.rs:80–121`). -/
def webhookUrlNeedsReview (url : String) : Option String := do
  let rest ← stripPrefix "https://" (trim url)
  if isPrivateHost (reviewedHost ((splitChar '/' rest).headD "")) then
    some ("daku webhook posts health metadata to an intranet or metadata-like https target " ++
      s!"({redactedUrl url}); confirm the URL is intentional")
  else none

/-- Where a relay thread stands. -/
inductive TickStage where
  /-- It reads the settings next (`webhook.rs:205`). -/
  | started
  /-- It checks its URL next (`webhook.rs:216–224`). -/
  | checking (url : String)
  /-- It tries to set the flag next (`webhook.rs:227–233`). -/
  | entering (url : String)
  /-- It has set the flag (`webhook.rs:234–240`). -/
  | reviewing (url : String)
  /-- It opens the database next (`webhook.rs:254–256`). -/
  | opening (url : String)
  | relaying (url : String) (pass : RelayProg Unit)
  /-- `relay_to` has returned, and the flag is still set (`webhook.rs:242`). -/
  | leaving
  | ended
  /-- The daemon died before it ended. -/
  | dead

/-- The thread is between the two writes of the flag. -/
def TickStage.Inside : TickStage → Prop
  | .reviewing _ | .opening _ | .relaying _ _ | .leaving => True
  | _ => False

/-- What is left of the pass of a thread. -/
def TickStage.pass : TickStage → Option (RelayProg Unit)
  | .relaying _ pass => some pass
  | _ => none

/-- The URL a thread has read. -/
def TickStage.url : TickStage → Option String
  | .checking url | .entering url | .reviewing url | .opening url | .relaying url _ => some url
  | _ => none

/-- What a relay thread prints about its URL (`webhook.rs:220, 237`). -/
inductive TickLog where
  | refused (url line : String)
  | review (warning : String)
  deriving DecidableEq, Repr

/-- The URL of a refusal. -/
def TickLog.refusal : TickLog → Option String
  | .refused url _ => some url
  | .review _ => none

/-- A call of `post`: the thread that makes it, the URL it posts to, and the event. -/
structure Attempt where
  thread : ℕ
  url : String
  event : HealthEvent
  deriving DecidableEq

/-- The relay of a daemon with its threads, each of which keeps its number for good. -/
structure Ticks where
  inFlight : Bool
  lastRefused : Option String
  lastWarned : Option String
  threads : List TickStage
  relay : Relay
  /-- Every call of `post` so far. -/
  attempts : List Attempt
  /-- The threads that were turned away since the daemon started, each with its URL. -/
  refusals : List (ℕ × String)
  /-- What the daemon has printed about URLs since it started. -/
  log : List TickLog

/-- What happens next. -/
inductive TickAction where
  /-- A publish finds a URL in the settings (`collector.rs:777–785`). -/
  | spawn (settings : DaemonSettings)
  | read (thread : ℕ) (settings : DaemonSettings)
  | proceed (thread : ℕ) (now : Int)
  /-- The database cannot be opened, or a statement of the pass fails. -/
  | fail (thread : ℕ)
  /-- Another thread or process issues a statement. -/
  | external (c : Statement)
  /-- The daemon dies and is started again. -/
  | crash

/-- The event that the next step of a pass posts. -/
def attempted : RelayProg Unit → Option HealthEvent
  | .exec (.post event) _ => some event
  | _ => none

namespace Ticks

/-- A daemon that has just started over a database. -/
def started (db : Db) (script : ℕ → Bool) : Ticks :=
  ⟨false, none, none, [], .started db script, [], [], []⟩

/-- A thread gets to a stage. -/
def move (s : Ticks) (thread : ℕ) (stage : TickStage) : Ticks :=
  { s with threads := s.threads.set thread stage }

/-- The next step of a thread (`webhook.rs:216–246`). -/
def proceed (s : Ticks) (thread : ℕ) (now : Int) : TickStage → Option Ticks
  | .started | .ended | .dead => none
  | .checking url =>
    if webhookUrlAllowed url then some (s.move thread (.entering url))
    else if s.lastRefused = some url then
      some { s.move thread .ended with refusals := s.refusals ++ [(thread, url)] }
    else
      some { s.move thread .ended with
        refusals := s.refusals ++ [(thread, url)]
        lastRefused := some url, log := s.log ++ [.refused url (refusalLine url)] }
  | .entering url =>
    if s.inFlight then some (s.move thread .ended)
    else some { s.move thread (.reviewing url) with inFlight := true }
  | .reviewing url =>
    match webhookUrlNeedsReview url with
    | none => some (s.move thread (.opening url))
    | some warning =>
      if s.lastWarned = some warning then some (s.move thread (.opening url))
      else
        some { s.move thread (.opening url) with
          lastWarned := some warning, log := s.log ++ [.review warning] }
  | .opening url => some (s.move thread (.relaying url (relayTo now)))
  | .relaying _ (.done _) =>
    some { s.move thread .leaving with relay := { s.relay with pass := none } }
  | .relaying url pass =>
    let next := pass.next s.relay
    some { s.move thread (.relaying url next.1) with
      relay := next.2
      attempts := s.attempts ++ (attempted pass).toList.map fun e ↦ ⟨thread, url, e⟩ }
  | .leaving => some { s.move thread .ended with inFlight := false }

/-- A thread gives up (`webhook.rs:254–255` and the `?` of the statements). -/
def fail (s : Ticks) (thread : ℕ) : TickStage → Option Ticks
  | .opening _ => some (s.move thread .leaving)
  | .relaying _ (.done _) => none
  | .relaying _ _ => some { s.move thread .leaving with relay := { s.relay with pass := none } }
  | _ => none

/-- The pass in progress, as the one the relay is to have. -/
def daemon (s : Ticks) : Daemon := ⟨s.relay, s.threads.findSome? TickStage.pass⟩

/-- At most one thread is between the two writes of the flag, and the flag tells whether one is. -/
structure SingleFlight (s : Ticks) : Prop where
  unique : ∀ {i j : ℕ} {a b : TickStage}, s.threads[i]? = some a → s.threads[j]? = some b →
    a.Inside → b.Inside → i = j
  flag : s.inFlight = true ↔ ∃ stage ∈ s.threads, stage.Inside

end Ticks

/-- Relay threads among everybody else. -/
def ticks : Machine Ticks TickAction where
  step s
    | .spawn settings =>
      if (configuredUrl settings).isSome then some { s with threads := s.threads ++ [.started] }
      else none
    | .read thread settings => do
      match ← s.threads[thread]? with
      | .started =>
        match configuredUrl settings with
        | none => some (s.move thread .ended)
        | some url => some (s.move thread (.checking url))
      | _ => none
    | .proceed thread now => do
      let stage ← s.threads[thread]?
      s.proceed thread now stage
    | .fail thread => do
      let stage ← s.threads[thread]?
      s.fail thread stage
    | .external c => if External c then some { s with relay := s.relay.external c } else none
    | .crash =>
      some { s with
        inFlight := false, lastRefused := none, lastWarned := none, refusals := [], log := []
        threads := s.threads.map fun _ ↦ .dead
        relay := { s.relay with lastSent := fun _ ↦ none, pass := none } }

end Daku.Webhook
