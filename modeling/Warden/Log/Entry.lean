/-!
Entries of the system log.

An entry belongs to one of four fixed categories, has one of three levels and carries a message.
-/

namespace Warden.Log

inductive Category where
  /-- A line of the agent's output. -/
  | relayed
  /-- The agent could not be started. -/
  | startFailure
  /-- The agent could not be stopped, or ended abnormally. -/
  | stopFailure
  /-- The agent's output could not be read. -/
  | forwarder
  deriving DecidableEq, Repr

namespace Category

/-- The number recorded with an entry. -/
def code : Category → Nat
  | relayed => 1
  | startFailure => 2
  | stopFailure => 3
  | forwarder => 4

def all : List Category := [relayed, startFailure, stopFailure, forwarder]

end Category

inductive Level where
  | info | warning | error
  deriving DecidableEq, Repr

namespace Level

def text : Level → String
  | info => "info"
  | warning => "warning"
  | error => "error"

/-- Rank by urgency. -/
def rank : Level → Nat
  | info => 0
  | warning => 1
  | error => 2

def all : List Level := [info, warning, error]

/-- The distinct levels of a list, least urgent first. -/
def sorted (ls : List Level) : List Level := all.filter ls.contains

/-- The most urgent level of a list. -/
def max? (ls : List Level) : Option Level := (sorted ls).getLast?

end Level

structure Entry where
  category : Category
  level : Level
  message : String
  deriving DecidableEq, Repr

end Warden.Log
