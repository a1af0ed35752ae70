import Warden.Proofs.Service.Inputs

/-!
Stop and shutdown.

The loop handles the two requests alike; only the records name them. A run therefore does the same
when some of its stops are exchanged for shutdowns.
-/

namespace Warden.Service

open Agent Log

def Request.asStop : Request → Request
  | .shutdown => .stop
  | q => q

def Event.asStop : Event → Event
  | .request q => .request q.asStop
  | e => e

def Loop.Input.asStop : Input → Input
  | .event e x => .event e.asStop x
  | i => i

def Act.asStop : Act → Act
  | .request q => .request q.asStop
  | a => a

lemma Loop.step_asStop (l : Loop) (i : Input) :
    (l.step i.asStop).1 = (l.step i).1 ∧ deeds (l.step i.asStop).2 = deeds (l.step i).2 := by
  rcases i with ⟨q | result, x⟩ | _ | r
  · cases q with
    | interrogate | stop => exact ⟨rfl, rfl⟩
    | shutdown =>
      unfold step
      rcases l.phase with _ | p
      · rcases x with _ | x <;> exact ⟨rfl, rfl⟩
      · rcases p with _ | _ | _ <;> exact ⟨rfl, rfl⟩
  · exact ⟨rfl, rfl⟩
  · exact ⟨rfl, rfl⟩
  · exact ⟨rfl, rfl⟩

lemma Loop.Course.step_asStop (c : Course) (i : Input) :
    (c.step i.asStop).1 = (c.step i).1 ∧ deeds (c.step i.asStop).2 = deeds (c.step i).2 := by
  rcases c with l | o
  · exact l.step_asStop i
  · exact ⟨rfl, rfl⟩

namespace Run

variable {σ : Type} (k : Sink σ)

/-- `r'` is `r` with stops in place of shutdowns. -/
structure Alike (r r' : Run σ) : Prop where
  supervisor : r'.supervisor = r.supervisor
  inbox : r'.inbox = r.inbox.map Event.asStop
  host : r'.host = r.host
  course : r'.course = r.course
  trace : deeds r'.trace = deeds r.trace

variable {r r' : Run σ}

lemma isOver_congr (h : r'.course = r.course) : r'.isOver = r.isOver := by
  unfold Run.isOver
  rw [h]

lemma isListening_congr (h : r'.course = r.course) : r'.isListening = r.isListening := by
  unfold Run.isListening
  rw [h]

lemma isDisconnected_congr (hh : r'.host = r.host) (hs : r'.supervisor = r.supervisor) :
    r'.isDisconnected = r.isDisconnected := by
  unfold Run.isDisconnected
  rw [hh, hs]

lemma Alike.withSupervisor (h : Alike r r') {s s' : Supervisor σ} (hs : s' = s) :
    Alike { r with supervisor := s } { r' with supervisor := s' } :=
  ⟨hs, h.inbox, h.host, h.course, h.trace⟩

lemma Alike.post (h : Alike r r') (e : Event) : Alike (r.post e) (r'.post e.asStop) := by
  unfold Run.post
  rw [isOver_congr h.course]
  split
  · exact h
  · refine ⟨h.supervisor, ?_, h.host, h.course, h.trace⟩
    simp [h.inbox]

lemma Alike.input (h : Alike r r') (i : Loop.Input) :
    Alike (r.input k i) (r'.input k i.asStop) := by
  obtain ⟨hcourse, hdeeds⟩ := r.course.step_asStop i
  have hsink : (performAll k r'.supervisor.sink (r'.course.step i.asStop).2).1 =
      (performAll k r.supervisor.sink (r.course.step i).2).1 := by
    rw [h.supervisor, h.course, performAll_sink, hdeeds, ← performAll_sink]
  have hsup (s : Run σ) (j : Loop.Input) : (s.input k j).supervisor =
      { s.supervisor with sink := (performAll k s.supervisor.sink (s.course.step j).2).1 } := rfl
  refine ⟨?_, h.inbox, h.host, ?_, ?_⟩
  · rw [hsup, hsup, hsink, h.supervisor]
  · change (r'.course.step i.asStop).1 = (r.course.step i).1
    rw [h.course, hcourse]
  · change deeds (r'.trace ++ _) = deeds (r.trace ++ _)
    rw [deeds_append, deeds_append, deeds_performAll, deeds_performAll, h.trace, h.course, hdeeds]

lemma Alike.reply (h : Alike r r') (f : Supervisor σ → Stop.Reply) :
    Alike (r.input k (.reply (f r.supervisor))) (r'.input k (.reply (f r'.supervisor))) := by
  rw [h.supervisor]
  exact h.input k (.reply (f r.supervisor))

lemma Alike.receive (h : Alike r r') : Alike (r.receive k) (r'.receive k) := by
  have hexit : r'.supervisor.exit? = r.supervisor.exit? := by rw [h.supervisor]
  unfold Run.receive
  rw [isListening_congr h.course, isDisconnected_congr h.host h.supervisor, h.inbox, hexit]
  split
  · rcases r.inbox with _ | ⟨e, es⟩
    · simp only [List.map_nil]
      split
      · exact h.input k .disconnected
      · exact h
    · have hpop : Alike { r with inbox := es } { r' with inbox := es.map Event.asStop } :=
        ⟨h.supervisor, rfl, h.host, h.course, h.trace⟩
      exact hpop.input k (.event e r.supervisor.exit?)
  · exact h

lemma Alike.announce (h : Alike r r') (late : Bool) :
    Alike (r.announce late) (r'.announce late) := by
  unfold Run.announce
  rw [h.supervisor]
  split
  · next s result _ => exact (h.withSupervisor rfl).post (.agentGone result)
  · exact h

lemma Alike.step (h : Alike r r') (a : Act) : Alike (r.step k a) (r'.step k a.asStop) := by
  cases a with
  | request q =>
    change Alike (if r.host then r.post (.request q) else r)
      (if r'.host then r'.post (.request q.asStop) else r')
    rw [h.host]
    split
    · exact h.post (.request q)
    · exact h
  | hangUp => exact ⟨h.supervisor, h.inbox, rfl, h.course, h.trace⟩
  | deafen => exact ⟨h.supervisor, h.inbox, h.host, h.course, h.trace⟩
  | deliver d => exact h.withSupervisor (congrArg (·.feed [d]) h.supervisor)
  | close => exact h.withSupervisor (congrArg Supervisor.closeStream h.supervisor)
  | relay => exact h.withSupervisor (congrArg (Supervisor.relayOne k) h.supervisor)
  | exit result => exact h.withSupervisor (congrArg (·.recordExit result) h.supervisor)
  | lose => exact h.withSupervisor (congrArg Supervisor.loseWaiter h.supervisor)
  | announce => exact h.announce false
  | announceLate => exact h.announce true
  | receive => exact h.receive k
  | look now => exact h.reply k (.looked now ·.exit?)
  | interrupted result => exact h.input k (.reply (.interrupted result))
  | killed result => exact h.input k (.reply (.killed result))

lemma Alike.run (h : Alike r r') (as : List Act) :
    Alike (r.run k as) (r'.run k (as.map Act.asStop)) := by
  induction as generalizing r r' with
  | nil => exact h
  | cons a as ih => exact ih (h.step k a)

/-- **Stop and shutdown cause the same deeds.** -/
theorem deeds_of_exchanged (hr : r.inbox = []) {as as' : List Act}
    (h : as.map Act.asStop = as'.map Act.asStop) :
    deeds (r.run k as).trace = deeds (r.run k as').trace := by
  have hself : Alike r r := ⟨rfl, by rw [hr]; rfl, rfl, rfl, rfl⟩
  rw [← (hself.run k as).trace, h, (hself.run k as').trace]

end Run

end Warden.Service
