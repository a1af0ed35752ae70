import Warden.Proofs.Service.Inputs

/-!
The turns of the loop.

`Loop.Turn` lists what the loop can do with an input that it takes: whether it goes on, and with
which effects. A chain of turns is a run of the loop (`Loop.Turns`); whatever holds of all runs is
proved by induction on the chain.
-/

namespace Warden.Service

open Agent Log

namespace Loop

/-- A request to stop has succeeded. -/
def relieved (l : Loop) : Loop := { l with phase := .listening, stopping := true }

def finished (o : Outcome) : List Effect :=
  [.tell (.info s!"Service finished: {o.text}"), .report (.stopped o.exitCode)]

inductive Turn (l : Loop) : Input → Course → List Effect → Prop where
  | echo {x : Option Exit} (hl : l.phase = .listening) :
    Turn l (.event (.request .interrogate) x) (.serving l) [.report l.current]
  | ask {q : Request} (hl : l.phase = .listening) (hq : q ≠ .interrogate) :
    Turn l (.event (.request q) none)
      (.serving { l with phase := .stopping .interrupting, current := .stopPending })
      [.tell (.info s!"Received {q.text} request; stopping agent"), .report .stopPending,
        .interrupt]
  /-- The exit is already recorded; nothing is left to stop. -/
  | moot {q : Request} {x : Exit} (hl : l.phase = .listening) (hq : q ≠ .interrogate) :
    Turn l (.event (.request q) (some x)) (.serving { l.relieved with current := .stopPending })
      [.tell (.info s!"Received {q.text} request; stopping agent"), .report .stopPending]
  | part {result : Except Fault Exit} {x : Option Exit} (hl : l.phase = .listening) :
    Turn l (.event (.agentGone result) x) (.ended .stopped)
      (farewell l.stopping result ++ finished .stopped)
  | cutOff (hl : l.phase = .listening) :
    Turn l .disconnected (.ended .stopped)
      (.tell (.warn "Service inbox closed unexpectedly") :: finished .stopped)
  | interrupt {now : Nat} (hl : l.phase = .stopping .interrupting) :
    Turn l (.reply (.interrupted (.ok now)))
      (.serving { l with phase := .stopping (.awaiting (now + l.policy.timeout.nanos)) }) []
  | refuse {f : Fault} (hl : l.phase = .stopping .interrupting) :
    Turn l (.reply (.interrupted (.error f)))
      (.serving { l with phase := .listening, current := .running })
      [.tell (.error (StopError.interrupt l.pid f).message),
        failure .stopFailure (StopError.interrupt l.pid f).message, .report .running]
  | await {deadline now : Nat} (hl : l.phase = .stopping (.awaiting deadline))
    (hnow : now < deadline) :
    Turn l (.reply (.looked now none)) (.serving l) [.sleep l.policy.poll]
  | heed {deadline now : Nat} {x : Exit} (hl : l.phase = .stopping (.awaiting deadline)) :
    Turn l (.reply (.looked now (some x))) (.serving l.relieved) [.tell (Stop.exited l.pid x)]
  | lose {deadline now : Nat} (hl : l.phase = .stopping (.awaiting deadline))
    (hnow : deadline ≤ now) :
    Turn l (.reply (.looked now none)) (.serving { l with phase := .stopping .killing })
      [.tell (Stop.spent l.pid l.policy.timeout), .kill]
  | kill (hl : l.phase = .stopping .killing) :
    Turn l (.reply (.killed (.ok ()))) (.serving l.relieved) []
  | fail {f : Fault} (hl : l.phase = .stopping .killing) :
    Turn l (.reply (.killed (.error f))) (.ended .killFailed)
      (.tell (.error (StopError.kill l.pid f).message) ::
        failure .stopFailure (StopError.kill l.pid f).message :: finished .killFailed)

/-- **A loop that takes an input makes one of its turns.** -/
theorem step_turn {l : Loop} {i : Input} (h : l.takes i = true) :
    l.Turn i (l.step i).1 (l.step i).2 := by
  obtain ⟨pid, policy, phase, current, stopping⟩ := l
  rcases phase with _ | _ | deadline | _
  · -- listening
    rcases i with ⟨q | result, x⟩ | _ | r
    · rcases q with _ | _ | _
      · exact .echo rfl
      · rcases x with _ | x
        · exact .ask rfl (by simp)
        · exact .moot rfl (by simp)
      · rcases x with _ | x
        · exact .ask rfl (by simp)
        · exact .moot rfl (by simp)
    · exact .part rfl
    · exact .cutOff rfl
    · simp [takes] at h
  · -- interrupting
    rcases i with _ | _ | ⟨_ | f⟩ | _ | _ <;> simp [takes] at h
    · exact .refuse rfl
    · exact .interrupt rfl
  · -- awaiting
    rcases i with _ | _ | _ | ⟨now, _ | x⟩ | _ <;> simp [takes] at h
    · rcases Nat.lt_or_ge now deadline with hnow | hnow
      · simp only [step, Stop.step_early pid policy hnow]
        exact .await rfl hnow
      · simp only [step, Stop.step_late pid policy hnow]
        exact .lose rfl hnow
    · exact .heed rfl
  · -- killing
    rcases i with _ | _ | _ | _ | ⟨f | _⟩ <;> simp [takes] at h
    · exact .fail rfl
    · exact .kill rfl

/-- A turn is what the loop does. -/
lemma Turn.step_eq {l : Loop} {i : Input} {c : Course} {es : List Effect} (t : l.Turn i c es) :
    l.step i = (c, es) := by
  cases t with
  | @ask q hl hq | @moot q _ hl hq =>
    cases q with
    | interrogate => exact absurd rfl hq
    | stop | shutdown =>
      unfold step
      rw [hl]
      rfl
  | await hl hnow =>
    obtain ⟨pid, policy, phase, current, stopping⟩ := l
    cases hl
    simp only [step, Stop.step_early pid policy hnow]
    rfl
  | lose hl hnow =>
    obtain ⟨pid, policy, phase, current, stopping⟩ := l
    cases hl
    simp only [step, Stop.step_late pid policy hnow]
    rfl
  | echo hl | part hl | cutOff hl | interrupt hl | refuse hl | heed hl | kill hl | fail hl =>
    obtain ⟨pid, policy, phase, current, stopping⟩ := l
    cases hl
    rfl

/-- A chain of turns, which the end closes. -/
inductive Turns : Loop → List Input → Course → List Effect → Prop where
  | nil {l : Loop} : Turns l [] (.serving l) []
  | last {l : Loop} {i : Input} {o : Outcome} {es : List Effect} (t : l.Turn i (.ended o) es) :
    Turns l [i] (.ended o) es
  | next {l l' : Loop} {i : Input} {is : List Input} {c : Course} {es fs : List Effect}
    (t : l.Turn i (.serving l') es) (ts : Turns l' is c fs) : Turns l (i :: is) c (es ++ fs)

theorem turns_of_fits {l : Loop} {is : List Input} (h : (Course.serving l).Fits is) :
    l.Turns is ((Course.serving l).run is).1 ((Course.serving l).run is).2 := by
  induction is generalizing l with
  | nil => exact .nil
  | cons i is ih =>
    obtain ⟨hi, his⟩ := h
    have t : l.Turn i (l.step i).1 (l.step i).2 := step_turn hi
    have hstep : (Course.serving l).step i = l.step i := rfl
    rw [Course.run_cons, hstep]
    rw [hstep] at his
    rcases hc : (l.step i).1 with l' | o
    · rw [hc] at t his
      exact .next t (ih his)
    · rw [hc] at t his
      rw [his.of_ended, Course.run_nil, List.append_nil]
      exact .last t

/-! ### The end -/

def Course.outcome? : Course → Option Outcome
  | serving _ => none
  | ended o => some o

/-- The outcome of an input that ends the loop. -/
def Input.outcome? : Input → Option Outcome
  | .event (.agentGone _) _ | .disconnected => some .stopped
  | .reply (.killed (.error _)) => some .killFailed
  | _ => none

lemma Turn.outcome {l : Loop} {i : Input} {c : Course} {es : List Effect}
    (t : l.Turn i c es) : c.outcome? = i.outcome? := by
  cases t <;> rfl

/-- The last input alone decides whether the loop is over. -/
lemma Turns.outcome {l : Loop} {is : List Input} {c : Course} {es : List Effect}
    (h : l.Turns is c es) : c.outcome? = is.getLast?.bind Input.outcome? := by
  induction h with
  | nil => rfl
  | last t => exact t.outcome
  | @next l l' i is c es fs t ts ih =>
    rw [ih]
    rcases is with _ | ⟨j, is⟩
    · have hi : i.outcome? = none := t.outcome.symm
      simp [hi]
    · rfl

end Loop

namespace Run

variable {σ : Type} (k : Sink σ)

lemma outcome_eq (r : Run σ) : r.outcome? = r.course.outcome? := by
  unfold outcome?
  rcases r.course with l | o <;> rfl

/-- The loop of a run makes a chain of turns. -/
lemma turns {r : Run σ} {l : Loop} (h : r.course = .serving l) (as : List Act) :
    l.Turns (r.inputs k as) (run k r as).course
      ((Loop.Course.serving l).run (r.inputs k as)).2 := by
  have hfit := r.inputs_fit k as
  rw [h] at hfit
  rw [(run_advances k r as).1, h]
  exact Loop.turns_of_fits hfit

/-- A loop that is over takes nothing and does nothing. -/
lemma of_ended {r : Run σ} {o : Outcome} (h : r.course = .ended o) (as : List Act) :
    r.inputs k as = [] ∧ (run k r as).course = .ended o ∧
      deeds (run k r as).trace = deeds r.trace := by
  have hfit := r.inputs_fit k as
  rw [h] at hfit
  have hadvances := run_advances k r as
  rw [hfit.of_ended] at hadvances
  obtain ⟨hcourse, htrace⟩ := hadvances
  refine ⟨hfit.of_ended, hcourse.trans h, ?_⟩
  rw [htrace, Loop.Course.run_nil, deeds_nil, List.append_nil]

/-- An agent that could not be started gives the loop nothing. -/
lemma of_not_started {s : Supervisor σ} {w : Surroundings} {e : SpawnError}
    (he : (s.start w).result = .error e) (as : List Act) :
    (start k s w).1.inputs k as = [] ∧
      ((start k s w).1.run k as).course = .ended .startFailed := by
  have hcourse : (start k s w).1.course = .ended .startFailed := by
    rw [start_course, he]
    rfl
  obtain ⟨htaken, hend, -⟩ := of_ended k hcourse as
  exact ⟨htaken, hend⟩

/-- An agent that was started is served. -/
lemma turns_of_started {s : Supervisor σ} {w : Surroundings} {pid : Nat}
    (hpid : (s.start w).result = .ok pid) (as : List Act) :
    ∃ es, (Loop.ofAgent pid s.policy).Turns ((start k s w).1.inputs k as)
        ((start k s w).1.run k as).course es ∧
      deeds ((start k s w).1.run k as).trace =
        deeds (startEffects s (.ok pid)) ++ deeds es := by
  have hcourse : (start k s w).1.course = .serving (.ofAgent pid s.policy) := by
    rw [start_course, hpid]
    rfl
  refine ⟨_, turns k hcourse as, ?_⟩
  rw [(run_advances k _ as).2, start_deeds, hpid, hcourse]

end Run

/-- Surroundings in which every agent is found and starts, and then says nothing. -/
def silent (pid : Nat) : Surroundings where
  platform := .unix
  directory := .ok "/opt"
  launchable _ := true
  launch _ := .ok (pid, .ofReads [] true)

/-- A supervisor without an agent, and with a sink that takes everything. -/
def unattached : Supervisor Memory := .idle "agent" [] .default (.empty none)

end Warden.Service
