import Warden.Log.Sink
import Warden.Diagnostics.Items

/-!
Relaying a stream to the system log.

Every item of the stream becomes one append, in order, up to and including the first failed read.
A sink that refuses an append changes nothing about the appends that follow; the refusal is told
in a record, and so is every failure of the stream.
-/

namespace Warden.Diagnostics

open Warden.Log

/-- The items up to and including the first one that ends the relay. -/
def upToFinal (is : List Item) : List Item :=
  is.takeWhile (!·.isFinal) ++ (is.dropWhile (!·.isFinal)).take 1

section
variable {σ : Type} (k : Sink σ)

/-- The records around an append: the failure that caused it, and the sink's refusal. -/
def relayRecords (i : Item) (answer : Option SinkError) : List Record :=
  match i, answer with
  | .line _, none => []
  | .line _, some e => [.warn s!"Failed to relay agent output to system log: {e.message}"]
  | .failure f, none => [.warn f.message]
  | .failure f, some e =>
    [.warn f.message, .warn s!"Failed to record forwarder error in system log: {e.message}"]

def relayItem (s : σ × Array Record) (i : Item) : σ × Array Record :=
  let (t, answer) := k.append s.1 i.entry
  (t, s.2.appendList (relayRecords i answer))

/-- Relays items in order; the records come behind those in `s`. -/
def relayItems (s : σ × Array Record) (is : List Item) : σ × Array Record :=
  is.foldl (relayItem k) s

@[simp] theorem relayItems_nil (s : σ × Array Record) : relayItems k s [] = s := rfl

@[simp] theorem relayItems_cons (s : σ × Array Record) (i : Item) (is : List Item) :
    relayItems k s (i :: is) = relayItems k (relayItem k s i) is := rfl

end

/-- The task that relays one stream. -/
inductive Forwarder where
  | reading (r : Reader)
  | ended
  | crashed

namespace Forwarder

def isReading : Forwarder → Bool
  | reading _ => true
  | _ => false

def feed (f : Forwarder) (rs : List Read) : Forwarder :=
  match f with
  | reading r => reading (r.feed rs)
  | f => f

def close : Forwarder → Forwarder
  | reading r => reading r.close
  | f => f

/-- One turn: the item that is relayed, if there is one, and the task after it. -/
def turn : Forwarder → Option Item × Forwarder
  | reading r =>
    match r.next with
    | .item i rest => (some i, if i.isFinal then ended else reading rest)
    | .ended => (none, ended)
    | .waiting => (none, reading r)
    | .crashed => (none, crashed)
  | f => (none, f)

/-- All turns until the task would wait or is over. -/
def settle : Forwarder → List Item × Forwarder
  | reading r =>
    let (is, ending) := r.items
    if is.any Item.isFinal then (upToFinal is, ended)
    else
      (is, match ending with
        | .ended => ended
        | .waiting rest => reading rest
        | .crashed => crashed)
  | f => ([], f)

end Forwarder

/-- The result of relaying a stream to its end. -/
structure Relayed (σ : Type) where
  /-- How many lines were seen, accepted or not. -/
  lines : Nat
  sink : σ
  records : Array Record
  task : Forwarder

def relay {σ : Type} (k : Sink σ) (s : σ) (r : Reader) : Relayed σ :=
  let (is, task) := (Forwarder.reading r).settle
  let (s, records) := relayItems k (s, #[]) is
  ⟨is.countP Item.isLine, s, records, task⟩

/-- Waits for the task's end, at most for `patience`: whether it ended well, and what is told. -/
def Forwarder.drain (f : Forwarder) (patience : Span) : Bool × List Record :=
  match f with
  | ended => (true, [])
  | crashed => (false, [])
  | reading _ =>
    (false, [.warn s!"Diagnostic stream still open {patience.text} after agent exit"])

end Warden.Diagnostics
