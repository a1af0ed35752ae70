import Warden.Proofs.Log.Attempts
import Warden.Proofs.Service.Interrogations
import Warden.Proofs.Service.Logs

/-!
The sink and the listener.

A run writes to a sink and reports to whoever listens, and lets neither decide anything. The same
acts over two sinks lead step by step to the same state, apart from the sinks and the records of
their refusals (`Run.Agrees`). Whoever stops listening hears a first part of the statuses
(`Run.Hears`), and the run goes on as if nothing had happened (`Run.step_unheard`).
-/

namespace Warden

open Agent Log Diagnostics

variable {σ τ : Type}

/-! ### Another sink -/

namespace Supervisor

/-- The same agent, with another sink. -/
def withSink (s : Supervisor σ) (t : τ) : Supervisor τ :=
  ⟨s.agent, s.arguments, s.policy, t, s.attached⟩

lemma withSink_start (s : Supervisor σ) (t : τ) (w : Surroundings) :
    (s.withSink t).start w =
      ⟨(s.start w).result, (s.start w).inquiries, (s.start w).supervisor.withSink t⟩ := by
  have hagent : (s.withSink t).agent = s.agent := rfl
  have harguments : (s.withSink t).arguments = s.arguments := rfl
  have hattached : (s.withSink t).attached = s.attached := rfl
  unfold start
  rw [hagent, harguments, hattached]
  rcases s.attached with _ | a
  · rcases w.directory with f | dir
    · rfl
    · simp only
      split
      · rcases w.launch (.ofName w.platform s.agent dir s.arguments) with f | ⟨pid, r⟩ <;> rfl
      · rfl
  · rfl

lemma withSink_announce (s : Supervisor σ) (t : τ) (late : Bool) :
    (s.withSink t).announce late =
      ((s.announce late).1.withSink t, (s.announce late).2) := by
  have hattached : (s.withSink t).attached = s.attached := rfl
  unfold announce
  rw [hattached]
  rcases s.attached with _ | a
  · rfl
  · rcases hw : a.waiter with _ | result | _ | _
    · simp only [hw]
    · simp only [hw]
      split <;> rfl
    · simp only [hw]
    · simp only [hw]

lemma announce_sink (s : Supervisor σ) (late : Bool) : (s.announce late).1.sink = s.sink := by
  obtain hsame | ⟨a, result, -, -, -, htell⟩ := s.announce_cases late
  · rw [hsame]
  · rw [htell]

/-- A turn of the forwarder tries the same on every sink. -/
lemma withSink_relayOne (k : Sink σ) (k' : Sink τ) (s : Supervisor σ) (t : τ) :
    ∃ es, (s.relayOne k).sink = (k.appendAll s.sink es).1 ∧
      (s.withSink t).relayOne k' = (s.relayOne k).withSink (k'.appendAll t es).1 := by
  obtain ⟨hsame, hnone⟩ | ⟨a, ha, hturn⟩ := s.relayOne_cases k
  · refine ⟨[], by rw [hsame]; rfl, ?_⟩
    obtain ⟨hsame', -⟩ | ⟨a, ha, -⟩ := (s.withSink t).relayOne_cases k'
    · rw [hsame, hsame']
      rfl
    · cases hnone.symm.trans ha
  · refine ⟨a.forwarder.turn.1.toList.map Item.entry, by rw [hturn], ?_⟩
    obtain ⟨-, hnone⟩ | ⟨b, hb, hturn'⟩ := (s.withSink t).relayOne_cases k'
    · cases ha.symm.trans hnone
    · obtain rfl : a = b := Option.some.inj (ha.symm.trans hb)
      rw [hturn, hturn']
      rfl

end Supervisor

namespace Service

namespace Run

/-- `r'` is `r` over another sink, whose state was `y` when that of the first was `x`. -/
structure Agrees (k : Sink σ) (k' : Sink τ) (x : σ) (y : τ) (r : Run σ) (r' : Run τ) : Prop where
  supervisor : r'.supervisor = r.supervisor.withSink r'.supervisor.sink
  inbox : r'.inbox = r.inbox
  host : r'.host = r.host
  listens : r'.listens = r.listens
  course : r'.course = r.course
  trace : deeds r'.trace = deeds r.trace
  heard : r'.heard = r.heard
  /-- The same has been tried on both sinks. -/
  attempts : ∃ es, r.supervisor.sink = (k.appendAll x es).1 ∧
    r'.supervisor.sink = (k'.appendAll y es).1

variable {k : Sink σ} {k' : Sink τ} {x : σ} {y : τ} {r : Run σ} {r' : Run τ}

lemma Agrees.exit (h : Agrees k k' x y r r') : r'.supervisor.exit? = r.supervisor.exit? := by
  rw [h.supervisor]
  rfl

lemma Agrees.isOver (h : Agrees k k' x y r r') : r'.isOver = r.isOver := by
  unfold Run.isOver
  rw [h.course]

lemma Agrees.isListening (h : Agrees k k' x y r r') : r'.isListening = r.isListening := by
  unfold Run.isListening
  rw [h.course]

lemma Agrees.isDisconnected (h : Agrees k k' x y r r') :
    r'.isDisconnected = r.isDisconnected := by
  have hattached : r'.supervisor.attached = r.supervisor.attached := by
    rw [h.supervisor]
    rfl
  unfold Run.isDisconnected
  rw [h.host, hattached]

/-- A change of the agent that leaves the sink alone. -/
lemma Agrees.withSupervisor (h : Agrees k k' x y r r') {s : Supervisor σ}
    (hs : s.sink = r.supervisor.sink) :
    Agrees k k' x y { r with supervisor := s }
      { r' with supervisor := s.withSink r'.supervisor.sink } where
  supervisor := rfl
  inbox := h.inbox
  host := h.host
  listens := h.listens
  course := h.course
  trace := h.trace
  heard := h.heard
  attempts := by
    rw [hs]
    exact h.attempts

lemma Agrees.post (h : Agrees k k' x y r r') (e : Event) :
    Agrees k k' x y (r.post e) (r'.post e) := by
  unfold Run.post
  rw [h.isOver]
  split
  · exact h
  · refine ⟨h.supervisor, ?_, h.host, h.listens, h.course, h.trace, h.heard, h.attempts⟩
    exact congrArg (· ++ [e]) h.inbox

/-- The same effects are heard alike, and try the same. -/
lemma Agrees.carryOut (h : Agrees k k' x y r r') (step : Loop.Course × List Effect) :
    Agrees k k' x y (r.carryOut k step) (r'.carryOut k' step) where
  supervisor := congrArg (fun s => Supervisor.withSink s _) h.supervisor
  inbox := h.inbox
  host := h.host
  listens := h.listens
  course := rfl
  trace := by
    change deeds (r'.trace ++ _) = deeds (r.trace ++ _)
    rw [deeds_append, deeds_append, deeds_performAll, deeds_performAll, h.trace]
  heard := by
    have hdone {ρ : Type} (j : Sink ρ) (s : ρ) :
        statuses (performAll j s step.2).2 = statuses step.2 := by
      rw [← statuses_deeds, deeds_performAll, statuses_deeds]
    change (if r'.listens then r'.heard ++ statuses (performAll k' _ step.2).2 else r'.heard) =
      if r.listens then r.heard ++ statuses (performAll k _ step.2).2 else r.heard
    rw [hdone, hdone, h.listens, h.heard]
  attempts := by
    obtain ⟨es, hx, hy⟩ := h.attempts
    refine ⟨es ++ entries step.2, ?_, ?_⟩
    · rw [Sink.appendAll_append, ← hx]
      exact performAll_attempts k _ _
    · rw [Sink.appendAll_append, ← hy]
      exact performAll_attempts k' _ _

lemma Agrees.input (h : Agrees k k' x y r r') (i : Loop.Input) :
    Agrees k k' x y (r.input k i) (r'.input k' i) := by
  unfold Run.input
  rw [h.course]
  exact h.carryOut _

lemma Agrees.receive (h : Agrees k k' x y r r') :
    Agrees k k' x y (r.receive k) (r'.receive k') := by
  unfold Run.receive
  rw [h.isListening, h.isDisconnected, h.inbox, h.exit]
  split
  · rcases r.inbox with _ | ⟨e, es⟩
    · simp only
      split
      · exact h.input .disconnected
      · exact h
    · have hpop : Agrees k k' x y { r with inbox := es } { r' with inbox := es } :=
        ⟨h.supervisor, rfl, h.host, h.listens, h.course, h.trace, h.heard, h.attempts⟩
      exact hpop.input (.event e r.supervisor.exit?)
  · exact h

lemma Agrees.announce (h : Agrees k k' x y r r') (late : Bool) :
    Agrees k k' x y (r.announce late) (r'.announce late) := by
  have hannounce := r.supervisor.withSink_announce r'.supervisor.sink late
  have hsink := r.supervisor.announce_sink late
  unfold Run.announce
  rw [h.supervisor, hannounce]
  rcases hc : r.supervisor.announce late with ⟨s, _ | result⟩
  · exact h
  · rw [hc] at hsink
    exact (h.withSupervisor hsink).post (.agentGone result)

/-- A turn of the forwarder tries the same on both sinks. -/
lemma Agrees.relay (h : Agrees k k' x y r r') :
    Agrees k k' x y (r.step k .relay) (r'.step k' .relay) := by
  obtain ⟨fs, hsink, hturn⟩ := r.supervisor.withSink_relayOne k k' r'.supervisor.sink
  obtain ⟨es, hx, hy⟩ := h.attempts
  have hrelay : r'.supervisor.relayOne k' =
      (r.supervisor.relayOne k).withSink (k'.appendAll r'.supervisor.sink fs).1 := by
    rw [← hturn, ← h.supervisor]
  change Agrees k k' x y { r with supervisor := r.supervisor.relayOne k }
    { r' with supervisor := r'.supervisor.relayOne k' }
  rw [hrelay]
  refine ⟨rfl, h.inbox, h.host, h.listens, h.course, h.trace, h.heard, es ++ fs, ?_, ?_⟩
  · rw [Sink.appendAll_append, ← hx]
    exact hsink
  · rw [Sink.appendAll_append, ← hy]
    rfl

lemma Agrees.step (h : Agrees k k' x y r r') (a : Act) :
    Agrees k k' x y (r.step k a) (r'.step k' a) := by
  have hagent {s : Supervisor σ} {s' : Supervisor τ} (hsink : s.sink = r.supervisor.sink)
      (hs : s' = s.withSink r'.supervisor.sink) :
      Agrees k k' x y { r with supervisor := s } { r' with supervisor := s' } := by
    rw [hs]
    exact h.withSupervisor hsink
  cases a with
  | request q =>
    simp only [Run.step]
    rw [h.host]
    split
    · exact h.post (.request q)
    · exact h
  | hangUp => exact ⟨h.supervisor, h.inbox, rfl, h.listens, h.course, h.trace, h.heard, h.attempts⟩
  | deafen => exact ⟨h.supervisor, h.inbox, h.host, rfl, h.course, h.trace, h.heard, h.attempts⟩
  | deliver d => exact hagent rfl (congrArg (·.feed [d]) h.supervisor)
  | close => exact hagent rfl (congrArg Supervisor.closeStream h.supervisor)
  | relay => exact h.relay
  | exit result => exact hagent rfl (congrArg (·.recordExit result) h.supervisor)
  | lose => exact hagent rfl (congrArg Supervisor.loseWaiter h.supervisor)
  | announce => exact h.announce false
  | announceLate => exact h.announce true
  | receive => exact h.receive
  | look now =>
    simp only [Run.step, h.exit]
    exact h.input _
  | interrupted result => exact h.input (.reply (.interrupted result))
  | killed result => exact h.input (.reply (.killed result))

lemma Agrees.given (h : Agrees k k' x y r r') (a : Act) : r'.given? a = r.given? a := by
  unfold given? offer?
  rw [h.course, h.exit, h.inbox, h.isDisconnected]

/-- **The same acts do the same over every sink.** -/
theorem Agrees.run (h : Agrees k k' x y r r') (as : List Act) :
    Agrees k k' x y (r.run k as) (r'.run k' as) ∧ r'.inputs k' as = r.inputs k as := by
  induction as generalizing r r' with
  | nil => exact ⟨h, rfl⟩
  | cons a as ih =>
    obtain ⟨hrun, hinputs⟩ := ih (h.step a)
    refine ⟨hrun, ?_⟩
    rw [inputs, inputs, h.given, hinputs]

lemma startEffects_withSink (s : Supervisor σ) (t : τ) (result : Except SpawnError Nat) :
    startEffects (s.withSink t) result = startEffects s result := by
  cases result <;> rfl

lemma startCourse_withSink (s : Supervisor σ) (t : τ) (result : Except SpawnError Nat) :
    startCourse (s.withSink t) result = startCourse s result := by
  cases result <;> rfl

lemma startBehind_agrees (k : Sink σ) (k' : Sink τ) (s : Supervisor σ) (t : τ) (w : Surroundings)
    (queued : List Request) :
    Agrees k k' s.sink t (startBehind k s w queued) (startBehind k' (s.withSink t) w queued) ∧
      (start k' (s.withSink t) w).2 = (start k s w).2 := by
  have hsink : (s.start w).supervisor.sink = s.sink := s.start_sink w
  have hbegun : Agrees k k' s.sink t
      ⟨(s.start w).supervisor, [], true, true, startCourse s (s.start w).result, [], []⟩
      ⟨(s.start w).supervisor.withSink t, [], true, true, startCourse s (s.start w).result,
        [], []⟩ :=
    ⟨rfl, rfl, rfl, rfl, rfl, rfl, rfl, [], hsink, rfl⟩
  have hstart := hbegun.carryOut
    (startCourse s (s.start w).result, startEffects s (s.start w).result)
  unfold startBehind start
  simp only [s.withSink_start t w, startCourse_withSink, startEffects_withSink]
  exact ⟨⟨hstart.supervisor, rfl, hstart.host, hstart.listens, hstart.course, hstart.trace,
    hstart.heard, hstart.attempts⟩, trivial⟩

/-! ### The listener -/

/-- The run, as it would be if nobody had listened to it. -/
def unheard (r : Run σ) : Run σ := { r with listens := false, heard := [] }

end Run

/-- The host stops listening by this act. -/
def Act.isDeafening : Act → Bool
  | .deafen => true
  | _ => false

namespace Run

variable (k : Sink σ)

lemma unheard_post (r : Run σ) (e : Event) : (r.post e).unheard = r.unheard.post e := by
  have hover : r.unheard.isOver = r.isOver := rfl
  unfold post
  rw [hover]
  split <;> rfl

lemma unheard_receive (r : Run σ) : (r.receive k).unheard = r.unheard.receive k := by
  have hlistening : r.unheard.isListening = r.isListening := rfl
  have hdisconnected : r.unheard.isDisconnected = r.isDisconnected := rfl
  have hinbox : r.unheard.inbox = r.inbox := rfl
  unfold receive
  rw [hlistening, hdisconnected, hinbox]
  split
  · rcases r.inbox with _ | ⟨e, es⟩
    · simp only
      split <;> rfl
    · rfl
  · rfl

lemma unheard_announce (r : Run σ) (late : Bool) :
    (r.announce late).unheard = r.unheard.announce late := by
  have hsupervisor : r.unheard.supervisor = r.supervisor := rfl
  unfold announce
  rw [hsupervisor]
  rcases r.supervisor.announce late with ⟨s, _ | result⟩
  · rfl
  · exact unheard_post _ _

lemma unheard_step (r : Run σ) (a : Act) : (r.step k a).unheard = r.unheard.step k a := by
  cases a with
  | request q =>
    have hhost : r.unheard.host = r.host := rfl
    simp only [step]
    rw [hhost]
    split
    · exact unheard_post _ _
    · rfl
  | receive => exact unheard_receive k r
  | announce => exact unheard_announce r false
  | announceLate => exact unheard_announce r true
  | hangUp | deafen | deliver | close | relay | exit | lose => rfl
  | look | interrupted | killed => rfl

/-- A run does the same when nobody listens, and listening does not begin or end anything. -/
lemma unheard_run (r : Run σ) (as : List Act) :
    (r.run k as).unheard = r.unheard.run k as ∧
      (r.run k (as.filter (!·.isDeafening))).unheard = r.unheard.run k as := by
  induction as generalizing r with
  | nil => exact ⟨rfl, rfl⟩
  | cons a as ih =>
    obtain ⟨hrun, hkept⟩ := ih (r.step k a)
    rw [unheard_step] at hrun hkept
    refine ⟨hrun, ?_⟩
    rcases ha : a.isDeafening with _ | _
    · have hkeep : (a :: as).filter (!·.isDeafening) = a :: as.filter (!·.isDeafening) := by
        simp [ha]
      rw [hkeep]
      exact hkept
    · have hdrop : (a :: as).filter (!·.isDeafening) = as.filter (!·.isDeafening) := by
        simp [ha]
      have hstill : r.unheard.step k a = r.unheard := by
        cases a with
        | deafen => rfl
        | _ => cases ha
      rw [hdrop, run_cons, hstill]
      exact (ih r).2

/-- What has been heard is a first part of the statuses, and all of them while somebody listens. -/
structure Hears (r : Run σ) : Prop where
  part : r.heard <+: statuses r.trace
  all : r.listens = true → r.heard = statuses r.trace

variable {k}

lemma Hears.of_eq {r r' : Run σ} (h : r.Hears) (hheard : r'.heard = r.heard)
    (htrace : r'.trace = r.trace) (hlistens : r'.listens = r.listens) : r'.Hears := by
  refine ⟨?_, fun hl => ?_⟩
  · rw [hheard, htrace]
    exact h.part
  · rw [hheard, htrace]
    exact h.all (hlistens.symm.trans hl)

lemma Hears.carryOut {r : Run σ} (h : r.Hears) (step : Loop.Course × List Effect) :
    (r.carryOut k step).Hears := by
  have htrace : statuses (r.carryOut k step).trace = statuses r.trace ++
      statuses (performAll k r.supervisor.sink step.2).2 := statuses_append ..
  have hlistens : (r.carryOut k step).listens = r.listens := rfl
  rcases hl : r.listens with _ | _
  · have hheard : (r.carryOut k step).heard = r.heard := by simp [Run.carryOut, hl]
    refine ⟨?_, fun hl' => ?_⟩
    · rw [hheard, htrace]
      exact h.part.trans (List.prefix_append ..)
    · rw [hlistens, hl] at hl'
      cases hl'
  · have hheard : (r.carryOut k step).heard = statuses (r.carryOut k step).trace := by
      rw [htrace, ← h.all hl]
      simp [Run.carryOut, hl]
    exact ⟨hheard ▸ List.prefix_rfl, fun _ => hheard⟩

lemma Hears.post {r : Run σ} (h : r.Hears) (e : Event) : (r.post e).Hears := by
  unfold Run.post
  split
  · exact h
  · exact h.of_eq rfl rfl rfl

lemma Hears.announce {r : Run σ} (h : r.Hears) (late : Bool) : (r.announce late).Hears := by
  unfold Run.announce
  split
  · next s result _ =>
    have hs : ({ r with supervisor := s } : Run σ).Hears := h.of_eq rfl rfl rfl
    exact hs.post _
  · exact h

lemma Hears.step {r : Run σ} (h : r.Hears) (a : Act) : (r.step k a).Hears := by
  cases a with
  | request q =>
    simp only [Run.step]
    split
    · exact h.post _
    · exact h
  | deafen => exact ⟨h.part, fun hl => by cases hl⟩
  | hangUp | deliver | close | relay | exit | lose => exact h.of_eq rfl rfl rfl
  | announce => exact h.announce false
  | announceLate => exact h.announce true
  | receive =>
    obtain ⟨e, es, -, -, -, hstep⟩ | ⟨-, -, -, -, hstep⟩ | ⟨-, -, hstep⟩ := r.receive_cases k
    · have hpop : ({ r with inbox := es } : Run σ).Hears := h.of_eq rfl rfl rfl
      rw [Run.step, hstep]
      exact hpop.carryOut _
    · rw [Run.step, hstep]
      exact h.carryOut _
    · rw [Run.step, hstep]
      exact h
  | look | interrupted | killed => exact h.carryOut _

lemma Hears.run {r : Run σ} (h : r.Hears) (as : List Act) : (r.run k as).Hears := by
  induction as generalizing r with
  | nil => exact h
  | cons a as ih => exact ih (h.step a)

/-- Nobody stops listening but by the act that says so. -/
lemma listens_step (r : Run σ) (a : Act) :
    (r.step k a).listens = (r.listens && !a.isDeafening) := by
  have hpost (t : Run σ) (e : Event) : (t.post e).listens = t.listens := by
    unfold post
    split <;> rfl
  have hannounce (late : Bool) : (r.announce late).listens = r.listens := by
    unfold announce
    split
    · exact hpost _ _
    · rfl
  cases a with
  | deafen => exact (Bool.and_false _).symm
  | request q =>
    refine Eq.trans ?_ (Bool.and_true _).symm
    rw [step]
    split
    · exact hpost _ _
    · rfl
  | announce => exact (hannounce false).trans (Bool.and_true _).symm
  | announceLate => exact (hannounce true).trans (Bool.and_true _).symm
  | receive =>
    refine Eq.trans ?_ (Bool.and_true _).symm
    rw [step]
    obtain ⟨e, es, -, -, -, hstep⟩ | ⟨-, -, -, -, hstep⟩ | ⟨-, -, hstep⟩ := r.receive_cases k
    · rw [hstep]
      rfl
    · rw [hstep]
      rfl
    · rw [hstep]
  | _ => exact (Bool.and_true _).symm

lemma listens_run (r : Run σ) (as : List Act) :
    (r.run k as).listens = (r.listens && as.all (!·.isDeafening)) := by
  induction as generalizing r with
  | nil => exact (Bool.and_true _).symm
  | cons a as ih => rw [run_cons, ih, listens_step, List.all_cons, Bool.and_assoc]

lemma startBehind_hears (s : Supervisor σ) (w : Surroundings) (queued : List Request) :
    (startBehind k s w queued).Hears ∧ (startBehind k s w queued).listens = true := by
  have hnew : (⟨(s.start w).supervisor, [], true, true, startCourse s (s.start w).result,
      [], []⟩ : Run σ).Hears := ⟨List.prefix_rfl, fun _ => rfl⟩
  have hstart := hnew.carryOut (k := k)
    (startCourse s (s.start w).result, startEffects s (s.start w).result)
  exact ⟨hstart.of_eq rfl rfl rfl, rfl⟩

end Run

/-- **Neither the sink nor the listener decides anything.** Over another sink, whatever either of
them answers to the loop or to the forwarder, the same acts ask the same of the surroundings and
give the loop the same inputs, the news of the exit among them; the run comes to the same outcome,
has the same statuses, sends the same signals and tries the same entries, in the same order, and
leaves the same agent. Whoever listens hears a first part of the statuses, and the run is the same
whether somebody listens to the end, for a while or not at all. -/
theorem onlookers_decide_nothing (k : Sink σ) (k' : Sink τ) (s : Supervisor σ) (t : τ)
    (w : Surroundings) (queued : List Request) (as : List Act) :
    let r₀ := Run.startBehind k s w queued
    let r₁ := Run.startBehind k' (s.withSink t) w queued
    let r := r₀.run k as
    let r' := r₁.run k' as
    let heeded := r₀.run k (as.filter (!·.isDeafening))
    let ignored := r₀.unheard.run k as
    ((Run.start k' (s.withSink t) w).2 = (Run.start k s w).2 ∧
      r₁.inputs k' as = r₀.inputs k as ∧ r'.outcome? = r.outcome? ∧
      deeds r'.trace = deeds r.trace ∧ r'.heard = r.heard ∧
      r'.supervisor = r.supervisor.withSink r'.supervisor.sink ∧
      ∃ es, r.supervisor.sink = (k.appendAll s.sink es).1 ∧
        r'.supervisor.sink = (k'.appendAll t es).1) ∧
    r.heard <+: statuses r.trace ∧ heeded.heard = statuses r.trace ∧ ignored.heard = [] ∧
    (heeded.outcome? = r.outcome? ∧ ignored.outcome? = r.outcome?) ∧
    (heeded.trace = r.trace ∧ ignored.trace = r.trace) ∧
    heeded.supervisor = r.supervisor ∧ ignored.supervisor = r.supervisor := by
  intro r₀ r₁ r r' heeded ignored
  obtain ⟨hbegin, hasked⟩ := Run.startBehind_agrees k k' s t w queued
  obtain ⟨hrun, hinputs⟩ := hbegin.run as
  have hout : r'.outcome? = r.outcome? := by
    rw [Run.outcome_eq, Run.outcome_eq, hrun.course]
  obtain ⟨hears, hlistens⟩ := Run.startBehind_hears (k := k) s w queued
  -- all three runs are the same when nobody is supposed to listen
  obtain ⟨hr, hheeded⟩ := r₀.unheard_run k as
  have hignored : ignored = r.unheard := hr.symm
  have hsame : heeded.unheard = r.unheard := hheeded.trans hr.symm
  have hcourse : heeded.unheard.course = r.unheard.course := congrArg Run.course hsame
  have htrace : heeded.unheard.trace = r.unheard.trace := congrArg Run.trace hsame
  have hsupervisor : heeded.unheard.supervisor = r.unheard.supervisor :=
    congrArg Run.supervisor hsame
  refine ⟨⟨hasked, hinputs, hout, hrun.trace, hrun.heard, hrun.supervisor, hrun.attempts⟩,
    (hears.run as).part, ?_, by rw [hignored]; rfl, ⟨?_, by rw [hignored]; rfl⟩,
    ⟨htrace, by rw [hignored]; rfl⟩, hsupervisor, by rw [hignored]; rfl⟩
  · have hall : heeded.listens = true := by
      rw [Run.listens_run, hlistens]
      simp
    rw [(hears.run _).all hall]
    exact congrArg statuses htrace
  · rw [Run.outcome_eq, Run.outcome_eq]
    exact congrArg Loop.Course.outcome? hcourse

end Service

end Warden
