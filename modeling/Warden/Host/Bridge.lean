import Warden.Host.Manager
import Warden.Service.Run

/-!
A service run under a manager.

The manager may call the handler at any time, before the loop begins and when it is over;
everything else happens as in any run. The handler sends three of the controls to the loop's inbox
and refuses the others; that an inbox is gone makes no difference to its answer. All statuses that
are heard are submitted to the manager, and behind a start that failed one more.
-/

namespace Warden.Host

open Log Service

/-- What happens in a run under a manager. -/
inductive Happening where
  /-- The manager calls the handler. -/
  | control (c : Control)
  /-- Anything else. -/
  | act (a : Act)

/-- What a happening is to the run: a control that is refused is nothing. -/
def Happening.act? : Happening → Option Act
  | control c => c.request?.map .request
  | act a => some a

/-- What a run has submitted to the manager, and what the manager took. -/
def submitted {σ : Type} (manager : Nat → Bool) (r : Run σ) : List Submission :=
  submissions manager (reported r.heard r.outcome?)

/-! ### The handler -/

/-- A request is sent to an inbox, if the inbox still exists. -/
def send : Option (List Event) → Request → Option (List Event)
  | some es, q => some (es ++ [.request q])
  | none, _ => none

def deliver (inbox : Option (List Event)) (q : Request) : Option (List Event) × Answer :=
  (send inbox q, .noError)

/-- The handler, called with a control. -/
def handle (inbox : Option (List Event)) : Control → Option (List Event) × Answer
  | .stop => deliver inbox .stop
  | .shutdown => deliver inbox .shutdown
  | .interrogate => deliver inbox .interrogate
  | _ => (inbox, .notImplemented)

/-- The handler, called with one control after another. -/
def handleAll (inbox : Option (List Event)) : List Control → Option (List Event) × List Answer
  | [] => (inbox, [])
  | c :: cs =>
    let (inbox, a) := handle inbox c
    let (inbox, as) := handleAll inbox cs
    (inbox, a :: as)

/-- A run whose handler is called, with the handler's answers so far. -/
structure Managed (σ : Type) where
  run : Run σ
  answers : List Answer

namespace Managed

variable {σ : Type}

/-- The inbox as the handler finds it. -/
def inbox? (m : Managed σ) : Option (List Event) :=
  if m.run.isOver then none else some m.run.inbox

def call (m : Managed σ) (c : Control) : Managed σ :=
  let (inbox, answer) := handle m.inbox? c
  ⟨{ m.run with inbox := inbox.getD m.run.inbox }, m.answers ++ [answer]⟩

variable (k : Sink σ)

/-- The inbox is made, and the handler may be called, before the agent is started. -/
def start (s : Supervisor σ) (w : Surroundings) (early : List Control) : Managed σ :=
  let (inbox, answers) := handleAll (some []) early
  ⟨{ (Run.start k s w).1 with inbox := inbox.getD [] }, answers⟩

def step (m : Managed σ) : Happening → Managed σ
  | .control c => m.call c
  | .act a => { m with run := m.run.step k a }

def runAll (m : Managed σ) (hs : List Happening) : Managed σ := hs.foldl (step k) m

end Managed

end Warden.Host
