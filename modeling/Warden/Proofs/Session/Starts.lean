import Warden.Proofs.Session.Signals
import Warden.Proofs.Supervisor

/-!
The starts of a session.

The PIDs that starts have returned are those that the supervisor holds, none or one
(`Session.run_start`), and what is announced is the end of that one agent
(`Session.run_announces`).
-/

namespace Warden

open Agent Log Service Diagnostics

namespace Supervisor

variable {σ : Type}

/-! ### What a start asks for -/

/-- `t` is the supervisor `s`, as far as starting goes. -/
structure Resembles (s t : Supervisor σ) : Prop where
  agent : t.agent = s.agent
  arguments : t.arguments = s.arguments
  pid : t.pid? = s.pid?

lemma Resembles.refl (s : Supervisor σ) : s.Resembles s := ⟨rfl, rfl, rfl⟩

/-- An agent stays the same agent, whatever it does. -/
lemma move_resembles (k : Sink σ) (s : Supervisor σ) (m : Attached.Move) :
    s.Resembles (s.move k m).1 := by
  rcases hs : s.attached with _ | b
  · rw [move_of_none k hs]
    exact .refl s
  · obtain ⟨c, hmoves, hmove⟩ := move_of_some k hs m
    rw [hmove]
    refine ⟨rfl, rfl, ?_⟩
    rw [Supervisor.pid?, Supervisor.pid?, hs, Option.map_some, Option.map_some, hmoves.pid]

end Supervisor

/-! ### The starts so far -/

namespace Session

variable {σ : Type}

/-- The start that an act makes, if it makes one. -/
def call? (s : Session σ) : Act → Option (Supervisor.Started σ)
  | .start w => if s.isBusy then none else some (s.supervisor.start w)
  | _ => none

variable (k : Sink σ)

/-- All starts of a session, in order. -/
def calls : Session σ → List Act → List (Supervisor.Started σ)
  | _, [] => []
  | s, a :: as => (s.call? a).toList ++ calls (s.step k a) as

lemma step_resembles (s : Session σ) {a : Act} (ha : s.call? a = none) :
    s.supervisor.Resembles (s.step k a).supervisor := by
  rcases hm : a.move? with _ | m
  · cases a with
    | start w =>
      have hbusy : s.isBusy = true := by simpa [call?] using ha
      simp only [step, Session.start, hbusy, if_true]
      exact .refl _
    | stop =>
      simp only [step, Session.stop]
      split <;> exact .refl _
    | look | interrupted | killed =>
      rw [step, hear_supervisor]
      exact .refl _
    | _ => cases hm
  · rw [step_move k hm]
    exact s.supervisor.move_resembles k m

lemma step_call {s : Session σ} {a : Act} {c : Supervisor.Started σ} (ha : s.call? a = some c) :
    (∃ w, a = .start w ∧ c = s.supervisor.start w) ∧
      s.step k a = { s with supervisor := c.supervisor } := by
  cases a with
  | start w =>
    rcases hbusy : s.isBusy with _ | _
    · obtain rfl : s.supervisor.start w = c := by simpa [call?, hbusy] using ha
      refine ⟨⟨w, rfl, rfl⟩, ?_⟩
      simp [step, Session.start, hbusy]
    · simp [call?, hbusy] at ha
  | _ => cases ha

/-- The supervisor keeps what it starts with; its agent is the one that a start has returned. -/
lemma step_start (s : Session σ) (a : Act) :
    (s.step k a).supervisor.agent = s.supervisor.agent ∧
      (s.step k a).supervisor.arguments = s.supervisor.arguments ∧
      (s.step k a).supervisor.pid?.toList =
        s.supervisor.pid?.toList ++ ((s.call? a).bind Supervisor.Started.pid?).toList := by
  rcases ha : s.call? a with _ | c
  · have h := s.step_resembles k ha
    exact ⟨h.agent, h.arguments, by rw [h.pid]; exact (List.append_nil _).symm⟩
  · obtain ⟨⟨w, -, rfl⟩, hstep⟩ := step_call k ha
    rw [hstep]
    rcases hs : s.supervisor.attached with _ | b
    · have h := Supervisor.start_attempted hs w
      have hnone : s.supervisor.pid? = none := by
        rw [Supervisor.pid?, hs]
        rfl
      refine ⟨h.keeps.1, h.keeps.2, ?_⟩
      rw [hnone]
      exact congrArg Option.toList (h.pid_eq hs)
    · rw [Supervisor.start_attached hs]
      exact ⟨rfl, rfl, (List.append_nil _).symm⟩

/-- The PIDs that starts have returned are those that the supervisor holds. -/
lemma run_start (s : Session σ) (as : List Act) :
    (s.run k as).supervisor.agent = s.supervisor.agent ∧
      (s.run k as).supervisor.arguments = s.supervisor.arguments ∧
      (s.run k as).supervisor.pid?.toList =
        s.supervisor.pid?.toList ++ (s.calls k as).filterMap Supervisor.Started.pid? := by
  induction as generalizing s with
  | nil => exact ⟨rfl, rfl, (List.append_nil _).symm⟩
  | cons a as ih =>
    obtain ⟨hagent, harguments, hpid⟩ := s.step_start k a
    obtain ⟨hagent', harguments', hpid'⟩ := ih (s.step k a)
    refine ⟨hagent'.trans hagent, harguments'.trans harguments, hpid'.trans ?_⟩
    rw [hpid, calls, List.filterMap_append, List.append_assoc]
    rcases s.call? a with _ | c
    · rfl
    · rcases hc : c.pid? with _ | n <;> simp [hc]

/-- A supervisor with an agent keeps it for good. -/
lemma run_keeps_pid (s : Session σ) {n : Nat} (h : s.supervisor.pid? = some n) (as : List Act) :
    (s.run k as).supervisor.pid? = some n := by
  have hpid := (s.run_start k as).2.2
  rw [h] at hpid
  rcases ht : (s.run k as).supervisor.pid? with _ | m
  · rw [ht] at hpid
    cases hpid
  · rw [ht] at hpid
    obtain ⟨rfl, -⟩ := List.cons.inj hpid
    rfl

/-! ### What is announced -/

/-- What has been announced is the end of the attached agent, once. -/
def Announces (s : Session σ) : Prop :=
  s.announced = [] ∨ ∃ a r, s.supervisor.attached = some a ∧ a.waiter = .announced ∧
    s.announced = [r]

lemma Announces.of_eq {s t : Session σ} (h : s.Announces) (hs : t.supervisor = s.supervisor)
    (hann : t.announced = s.announced) : t.Announces := by
  unfold Announces
  rw [hs, hann]
  exact h

/-- Without an agent nothing has been announced. -/
lemma Announces.of_none {s : Session σ} (h : s.Announces) (hs : s.supervisor.attached = none) :
    s.announced = [] := by
  obtain hnone | ⟨a, -, ha, -⟩ := h
  · exact hnone
  · rw [hs] at ha
    cases ha

/-- A waiter that has announced the end has nothing more to learn, or to announce. -/
lemma Announces.move {s : Session σ} (h : s.Announces) {a : Act} {m : Attached.Move}
    (hm : a.move? = some m) : (s.step k a).Announces := by
  rw [step_move k hm]
  rcases hs : s.supervisor.attached with _ | b
  · rw [Supervisor.move_of_none k hs, Option.toList_none, List.append_nil]
    exact h
  · obtain ⟨c, ⟨-, -, hshift⟩, hmove⟩ := Supervisor.move_of_some k hs m
    have hc : (s.supervisor.move k m).1.attached = some c := by rw [hmove]
    obtain hnone | ⟨b', r, hb', hw, hr⟩ := h
    · rw [hnone, List.nil_append]
      rcases htold : (s.supervisor.move k m).2 with _ | r
      · exact .inl rfl
      · rw [htold] at hshift
        cases hshift with
        | tell _ _ hw => exact .inr ⟨c, r, hc, hw, rfl⟩
    · obtain rfl : b = b' := Option.some.inj (hs.symm.trans hb')
      generalize (s.supervisor.move k m).2 = told at hshift ⊢
      cases hshift with
      | stay _ hsame =>
        rw [Option.toList_none, List.append_nil]
        exact .inr ⟨c, r, hc, hsame.trans hw, hr⟩
      | learn hwait | die hwait | tell hwait => cases hw.symm.trans hwait

lemma hear_announced (s : Session σ) (r : Stop.Reply) : (s.hear r).announced = s.announced := by
  unfold Session.hear
  split <;> rfl

lemma step_announces {s : Session σ} (h : s.Announces) (a : Act) : (s.step k a).Announces := by
  rcases hm : a.move? with _ | m
  · cases a with
    | start w =>
      simp only [step, Session.start]
      split
      · exact h
      · rcases hs : s.supervisor.attached with _ | b
        · exact .inl (h.of_none hs)
        · rw [Supervisor.start_attached hs]
          exact h
    | stop =>
      simp only [step, Session.stop]
      split <;> exact h
    | look | interrupted | killed =>
      exact h.of_eq (hear_supervisor s _) (hear_announced s _)
    | _ => cases hm
  · exact h.move k hm

lemma run_announces {s : Session σ} (h : s.Announces) (as : List Act) :
    (s.run k as).Announces := by
  induction as generalizing s with
  | nil => exact h
  | cons a as ih => exact ih (step_announces k h a)

/-! ### Able to start -/

/-- A request to stop is under way only where there is an agent. -/
lemma Sound.not_busy {s : Session σ} (h : s.Sound) (hs : s.supervisor.pid? = none) :
    s.isBusy = false := by
  rw [← Bool.not_eq_true]
  intro hbusy
  obtain ⟨n, hn⟩ := h.agent hbusy
  cases hs.symm.trans hn

/-- **A supervisor starts one agent, and holds it for good.** At most one start of a session ever
succeeds, and the PID it returns is the supervisor's from then on. Before it a start fails in one
of three ways, the first that applies, or succeeds; a failure leaves no agent, no exit, nothing
announced, and a supervisor that can start as before. Behind it every start is refused with that
PID, asks for nothing and changes nothing. -/
theorem one_start (agent : String) (arguments : List String) (policy : StopPolicy) (sink : σ)
    (as : List Act) :
    let s₀ := Session.new (.idle agent arguments policy sink)
    let s := s₀.run k as
    let pids := (s₀.calls k as).filterMap Supervisor.Started.pid?
    pids.length ≤ 1 ∧ s.announced.length ≤ 1 ∧
    (pids = [] →
      s.supervisor.pid? = none ∧ s.supervisor.exit? = none ∧ s.announced = [] ∧
      (∀ w, s.supervisor.Attempted w (s.supervisor.start w)) ∧
      (∀ w cmd, .launch cmd ∈ (s.supervisor.start w).inquiries →
        ∃ dir, w.directory = .ok dir ∧ w.launchable (Agent.path w.platform dir agent) = true ∧
          cmd = .ofName w.platform agent dir arguments) ∧
      ∀ w dir pid r, w.directory = .ok dir → w.launchable (Agent.path w.platform dir agent) = true →
        w.launch (.ofName w.platform agent dir arguments) = .ok (pid, r) →
        (s.step k (.start w)).supervisor.pid? = some pid) ∧
    ∀ n ∈ pids, ∀ bs w,
      let t := (s.run k bs).supervisor
      t.pid? = some n ∧ t.start w = ⟨.error (.alreadyRunning n), [], t⟩ := by
  intro s₀ s pids
  obtain ⟨hagent, harguments, hpids⟩ : s.supervisor.agent = agent ∧
    s.supervisor.arguments = arguments ∧ s.supervisor.pid?.toList = pids := s₀.run_start k as
  have hsound : s.Sound := run_sound k (new_sound agent arguments policy sink) as
  have hann : s.Announces := run_announces k (s := s₀) (.inl rfl) as
  refine ⟨?_, ?_, fun hnone => ?_, fun n hn bs w => ?_⟩
  · rw [← hpids]
    exact Option.length_toList_le
  · obtain h | ⟨a, r, -, -, h⟩ := hann
    · rw [h]
      exact Nat.zero_le 1
    · rw [h]
      exact Nat.le_refl 1
  · have hpid : s.supervisor.pid? = none := by
      rw [hnone] at hpids
      exact Option.toList_eq_nil_iff.mp hpids
    have hs : s.supervisor.attached = none := Option.map_eq_none_iff.mp hpid
    refine ⟨hpid, ?_, hann.of_none hs, Supervisor.start_attempted hs, fun w cmd hc => ?_,
      fun w dir pid r hdir hpath hlaunch => ?_⟩
    · rw [Supervisor.exit?, hs]
      rfl
    · have hlaunch := (Supervisor.start_attempted hs w).launch hc
      rwa [hagent, harguments] at hlaunch
    · rw [← hagent, ← harguments] at hlaunch
      rw [← hagent] at hpath
      have h := Supervisor.start_attempted hs w
      rw [← h.pid_of_launch hdir hpath hlaunch, ← h.pid_eq hs]
      simp only [step, Session.start, hsound.not_busy hpid]
      rfl
  · have hpid : s.supervisor.pid? = some n := by
      rw [← hpids, Option.mem_toList] at hn
      exact hn
    have hkeep : (s.run k bs).supervisor.pid? = some n := s.run_keeps_pid k hpid bs
    obtain ⟨a, ha, hn⟩ := Option.map_eq_some_iff.mp hkeep
    refine ⟨hkeep, ?_⟩
    rw [Supervisor.start_attached ha, hn]

/-- A start that finds no agent, one that succeeds, and the end of the agent. -/
def retried : List Act :=
  [.start (launching false 6), .start (launching true 7), .exit (.ok (.exited 0)), .announce true]

theorem one_start_retried :
    let s₀ := Session.new (.idle "agent" [] .default (Memory.empty none))
    let t := ((s₀.run Memory.sink retried).run Memory.sink [.stop]).supervisor
    (s₀.calls Memory.sink retried).filterMap Supervisor.Started.pid? = [7] ∧
      t.pid? = some 7 ∧
      t.start (launching true 8) = ⟨.error (.alreadyRunning 7), [], t⟩ := by
  have hpids : ((Session.new (.idle "agent" [] .default (Memory.empty none))).calls Memory.sink
      retried).filterMap Supervisor.Started.pid? = [7] := rfl
  have h := one_start Memory.sink "agent" [] .default (Memory.empty none) retried
  obtain ⟨-, -, -, hheld⟩ := h
  refine ⟨hpids, hheld 7 ?_ [.stop] (launching true 8)⟩
  rw [hpids]
  exact List.mem_singleton_self 7

end Session

end Warden
