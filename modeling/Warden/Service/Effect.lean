import Warden.Log.Sink
import Warden.Service.Status

/-!
What the control loop does to the world.

The loop is a machine that answers each input with a list of effects. Its entries are given to a
sink when the effects are performed; a refusal is told in a record and decides nothing.
-/

namespace Warden.Service

open Warden.Log

inductive Effect where
  | report (s : Status)
  | tell (r : Record)
  | append (e : Entry)
  /-- The interrupt of the agent's process group is called. -/
  | interrupt
  /-- The forced end of the agent's process group is called. -/
  | kill
  /-- The loop sleeps before it looks for the exit again. -/
  | sleep (d : Span)
  deriving DecidableEq

namespace Effect

def status? : Effect → Option Status
  | report s => some s
  | _ => none

def record? : Effect → Option Record
  | tell r => some r
  | _ => none

def entry? : Effect → Option Entry
  | append e => some e
  | _ => none

def sleep? : Effect → Option Span
  | sleep d => some d
  | _ => none

end Effect

def statuses (es : List Effect) : List Status := es.filterMap Effect.status?

def records (es : List Effect) : List Record := es.filterMap Effect.record?

def entries (es : List Effect) : List Entry := es.filterMap Effect.entry?

def sleeps (es : List Effect) : List Span := es.filterMap Effect.sleep?

section
variable {σ : Type} (k : Sink σ)

/-- Performs one effect on a sink; the effects that took place are listed. -/
def perform (s : σ) (e : Effect) : σ × List Effect :=
  match e with
  | .append entry =>
    match k.append s entry with
    | (s, none) => (s, [e])
    | (s, some f) => (s, [e, .tell (.warn s!"Failed to write to system log: {f.message}")])
  | e => (s, [e])

def performAll (s : σ) : List Effect → σ × List Effect
  | [] => (s, [])
  | e :: es =>
    let (s, done) := perform k s e
    let (s, rest) := performAll s es
    (s, done ++ rest)

end

end Warden.Service
