import Warden.Proofs.Service.Announcements
import Warden.Proofs.Service.Interrogations

/-!
How long a stop keeps its host waiting.

A run gets a clock, and its acts come at their times: whatever takes no time happens at once, the
looks at the recorded exit are a poll interval apart until the budget is spent, and the exit is
announced when the drain is over, at the latest (`Timed.Timely`). The time behind the report of a
pending stop goes to looks, for as many intervals as the budget takes, and then to the drain
(`Timed.Waits`); what comes later than that comes too late for one of them (`Timed.Waits.due`). All
this time is needed when the agent has to be killed and its stream stays open (`Timed.slowest`).
-/

namespace Warden

namespace StopPolicy

/-- The timeout rounded up to whole poll intervals, in nanoseconds. -/
def rounded (p : StopPolicy) : Nat :=
  (p.timeout.nanos + p.poll.nanos - 1) / p.poll.nanos * p.poll.nanos

/-- The longest time that a stop takes behind the report that announces it. -/
def longest (p : StopPolicy) : Nat := p.rounded + p.drain.nanos

variable {p : StopPolicy} (hpoll : 0 < p.poll.nanos)
include hpoll

/-- An interval that begins within the budget ends within the budget rounded up. -/
lemma interval_le_rounded {i : Nat} (h : i * p.poll.nanos < p.timeout.nanos) :
    i * p.poll.nanos + p.poll.nanos ≤ p.rounded := by
  have hcount : i + 1 ≤ (p.timeout.nanos + p.poll.nanos - 1) / p.poll.nanos := by
    rw [Nat.le_div_iff_mul_le hpoll, Nat.succ_mul]
    omega
  rw [← Nat.succ_mul]
  exact Nat.mul_le_mul_right _ hcount

/-- A round of looks that is not the last begins within the budget. -/
lemma lt_timeout {i : Nat} (h : i < (p.timeout.nanos + p.poll.nanos - 1) / p.poll.nanos) :
    i * p.poll.nanos < p.timeout.nanos := by
  have hcount := (Nat.le_div_iff_mul_le hpoll).mp (Nat.succ_le_of_lt h)
  rw [Nat.succ_mul] at hcount
  omega

lemma timeout_le_rounded : p.timeout.nanos ≤ p.rounded := by
  have hmod := Nat.div_add_mod (p.timeout.nanos + p.poll.nanos - 1) p.poll.nanos
  have hlt := Nat.mod_lt (p.timeout.nanos + p.poll.nanos - 1) hpoll
  rw [Nat.mul_comm] at hmod
  rw [rounded]
  omega

end StopPolicy

namespace Service

open Agent Log

variable {σ : Type}

/-! ### Runs with a clock -/

namespace Run

/-- Whether something is to be done that takes no time: an event lies before a loop that listens, a
signal is being sent, or the agent, which has been killed, ends. -/
def isUrgent (r : Run σ) : Bool :=
  match r.course with
  | .ended _ => false
  | .serving l =>
    (match l.phase with
      | .listening => !r.inbox.isEmpty
      | .stopping (.awaiting _) => false
      | .stopping _ => true) ||
    l.stopping && r.supervisor.exit?.isNone

def isAwaiting (r : Run σ) : Bool :=
  match r.course with
  | .ended _ => false
  | .serving l =>
    match l.phase with
    | .stopping (.awaiting _) => true
    | _ => false

/-- The exit is recorded and not announced yet. -/
def isDraining (r : Run σ) : Bool :=
  match r.supervisor.attached with
  | some ⟨_, _, _, .draining _⟩ => true
  | _ => false

/-- The sleeps of the loop in an act. -/
def slept (k : Sink σ) (r : Run σ) (a : Act) : List Span :=
  (sleeps (r.step k a).trace).drop (sleeps r.trace).length

end Run

/-- When a loop that sleeps so from the time `t` on is awake again. -/
def awake (t : Nat) (ds : List Span) : Nat := ds.foldl (fun t d => t + d.nanos) t

/-- A run with a clock, in nanoseconds. -/
structure Timed (σ : Type) where
  run : Run σ
  now : Nat
  /-- When the exit was recorded; as long as it is not, the present time. -/
  recorded : Nat
  /-- When the next look at the recorded exit is due. -/
  next : Nat
  /-- The statuses reported so far, each with its time. -/
  reports : List (Nat × Status)

namespace Timed

variable (k : Sink σ) (p : StopPolicy)

/-- A fresh run at the time `t`. -/
def start (s : Supervisor σ) (w : Surroundings) (queued : List Request) (t : Nat) : Timed σ :=
  let r := Run.startBehind k s w queued
  ⟨r, t, t, t, (statuses r.trace).map (t, ·)⟩

/-- An act at the time `t`. A reply is followed by the sleep that the loop makes of it, and then the
next look is due. -/
def step (m : Timed σ) (t : Nat) (a : Act) : Timed σ :=
  let r := m.run.step k a
  { run := r
    now := t
    recorded := if m.run.supervisor.exit?.isNone then t else m.recorded
    next := match m.run.given? a with
      | some (.reply _) => awake t (m.run.slept k a)
      | _ => m.next
    reports := m.reports ++ ((statuses r.trace).drop (statuses m.run.trace).length).map (t, ·) }

def runAll (m : Timed σ) (xs : List (Nat × Act)) : Timed σ :=
  xs.foldl (fun m x => step k m x.1 x.2) m

/-- The act may come at the time `t`, which is the clock's if it reads the clock: nothing that is
due earlier is passed over, a look comes when it is due, and the waiter, which does not die,
announces the exit at the end of the drain if it has not done so before. -/
structure Timely (m : Timed σ) (t : Nat) (a : Act) : Prop where
  later : m.now ≤ t
  urgent : m.run.isUrgent = true → t = m.now
  awaits : m.run.isAwaiting = true → t ≤ m.next
  look : ∀ now, a = .look now → now = t ∧ (m.run.isAwaiting = true → t = m.next)
  interrupted : ∀ began, a = .interrupted (.ok began) → began = t
  drains : m.run.isDraining = true → t ≤ m.recorded + p.drain.nanos
  late : m.run.isDraining = true → a = .announceLate → t = m.recorded + p.drain.nanos
  alive : a ≠ .lose

/-- All acts come at their times. -/
def Keeps : Timed σ → List (Nat × Act) → Prop
  | _, [] => True
  | m, (t, a) :: xs => Timely p m t a ∧ Keeps (step k m t a) xs

variable {k p}

lemma runAll_append (m : Timed σ) (xs ys : List (Nat × Act)) :
    m.runAll k (xs ++ ys) = (m.runAll k xs).runAll k ys :=
  List.foldl_append

lemma runAll_run (m : Timed σ) (xs : List (Nat × Act)) :
    (m.runAll k xs).run = m.run.run k (xs.map Prod.snd) := by
  induction xs generalizing m with
  | nil => rfl
  | cons x xs ih => exact ih (m.step k x.1 x.2)

lemma keeps_append (m : Timed σ) (xs ys : List (Nat × Act)) :
    Keeps k p m (xs ++ ys) ↔ Keeps k p m xs ∧ Keeps k p (m.runAll k xs) ys := by
  induction xs generalizing m with
  | nil => exact (and_iff_right trivial).symm
  | cons x xs ih => rw [List.cons_append, Keeps, Keeps, ih, and_assoc]; rfl

lemma Keeps.not_lose {m : Timed σ} {xs : List (Nat × Act)} (h : Keeps k p m xs) :
    .lose ∉ xs.map Prod.snd := by
  induction xs generalizing m with
  | nil => exact List.not_mem_nil
  | cons x xs ih =>
    obtain ⟨htimely, hrest⟩ := h
    exact List.not_mem_cons_of_ne_of_not_mem htimely.alive.symm (ih hrest)

/-! ### One act -/

/-- A recorded exit stays. -/
lemma exit_of_step {r : Run σ} {a : Act} (h : (r.step k a).supervisor.exit? = none) :
    r.supervisor.exit? = none := by
  rcases hb : r.supervisor.attached with _ | b
  · rw [Supervisor.exit?, hb, Option.bind_none]
  · obtain ⟨c, told, hc, htouches, -⟩ := Run.step_touches k hb a
    have hbefore : r.supervisor.exit? = b.exit := by rw [Supervisor.exit?, hb, Option.bind_some]
    have hbehind : (r.step k a).supervisor.exit? = c.exit := by
      rw [Supervisor.exit?, hc, Option.bind_some]
    rw [hbehind] at h
    rw [hbefore]
    cases htouches with
    | still => exact h
    | move _ hmoves =>
      cases hmoves.shift with
      | stay hx | die _ hx | tell _ hx => exact hx ▸ h
      | learn _ hx => cases h.symm.trans hx

/-- What the loop hears of the clock is what the act says. -/
lemma given_reply {r : Run σ} {a : Act} {i : Stop.Reply} (h : r.given? a = some (.reply i)) :
    (∀ now x, i = .looked now x → a = .look now) ∧
      ∀ began, i = .interrupted (.ok began) → a = .interrupted (.ok began) := by
  obtain ⟨hoffer, -⟩ := Option.filter_eq_some_iff.mp h
  cases a with
  | receive =>
    rw [Run.offer?] at hoffer
    split at hoffer
    · cases hoffer
    · split at hoffer <;> cases hoffer
  | look | interrupted | killed =>
    cases hoffer
    simp
  | _ => cases hoffer

variable {m : Timed σ} {l : Loop} {t : Nat} {a : Act}

lemma statuses_step (r : Run σ) (a : Act) : statuses (r.step k a).trace =
    statuses r.trace ++ statuses (r.course.run (r.given? a).toList).2 := by
  rw [← statuses_deeds, (Run.step_advances k r a).2, ← deeds_append, statuses_deeds,
    statuses_append]

lemma sleeps_step (r : Run σ) (a : Act) : sleeps (r.step k a).trace =
    sleeps r.trace ++ sleeps (r.course.run (r.given? a).toList).2 := by
  rw [← sleeps_deeds, (Run.step_advances k r a).2, ← deeds_append, sleeps_deeds, sleeps_append]

lemma step_reports (m : Timed σ) (t : Nat) (a : Act) : (m.step k t a).reports =
    m.reports ++ (statuses (m.run.course.run (m.run.given? a).toList).2).map (t, ·) := by
  simp only [step, statuses_step, List.drop_left]

lemma map_at (t : Nat) (ss : List Status) : (ss.map (t, ·)).map Prod.snd = ss := by
  rw [List.map_map]
  exact List.map_id ss

/-- The reports are the statuses that the run has reported. -/
lemma runAll_reports (h : m.reports.map Prod.snd = statuses m.run.trace)
    (xs : List (Nat × Act)) : (m.runAll k xs).reports.map Prod.snd =
      statuses (m.runAll k xs).run.trace := by
  induction xs generalizing m with
  | nil => exact h
  | cons x xs ih =>
    refine ih (m := m.step k x.1 x.2) ?_
    have hrun : (m.step k x.1 x.2).run = m.run.step k x.2 := rfl
    rw [step_reports, hrun, statuses_step, List.map_append, h, map_at]

/-- An act that gives nothing to the loop leaves its course and the reports alone. -/
lemma step_still (h : m.run.given? a = none) :
    (m.step k t a).run.course = m.run.course ∧ (m.step k t a).reports = m.reports := by
  refine ⟨?_, ?_⟩
  · have hcourse := (Run.step_advances k m.run a).1
    rwa [h] at hcourse
  · rw [step_reports, h]
    exact List.append_nil _

/-- The loop makes a turn of what it is given. -/
lemma step_turn (hl : m.run.course = .serving l) {i : Loop.Input} (h : m.run.given? a = some i) :
    ∃ es, l.Turn i (m.step k t a).run.course es ∧
      (m.step k t a).reports = m.reports ++ (statuses es).map (t, ·) ∧
      ∀ r, i = .reply r → (m.step k t a).next = awake t (sleeps es) := by
  have htakes : l.takes i = true := by
    have htaken := (Option.filter_eq_some_iff.mp h).2
    rwa [hl] at htaken
  have heffects : (m.run.course.run (m.run.given? a).toList).2 = (l.step i).2 := by
    rw [h, hl, Option.toList_some, Loop.Course.run_cons, Loop.Course.run_nil, List.append_nil]
    rfl
  have hcourse : (m.step k t a).run.course = (l.step i).1 := by
    have hadvances := (Run.step_advances k m.run a).1
    rwa [h, hl] at hadvances
  refine ⟨(l.step i).2, hcourse ▸ Loop.step_turn htakes, ?_, fun r hr => ?_⟩
  · rw [step_reports, heffects]
  · subst hr
    have hnext : (m.step k t a).next = awake t (m.run.slept k a) := by simp only [step, h]
    rw [hnext, Run.slept, sleeps_step, heffects, List.drop_left]

/-! ### What is due -/

/-- A stop was announced at `since` by the last report, and the clock stands where it may. -/
structure Waits (p : StopPolicy) (m : Timed σ) (l : Loop) (since : Nat) : Prop where
  now_le : m.now ≤ since + p.longest
  soon : l.phase ≠ .listening ∨ m.run.supervisor.exit? = none → m.now ≤ since + p.rounded
  recorded_le : m.recorded ≤ since + p.rounded
  stopping : l.phase = .listening → l.stopping = true
  interrupting : l.phase = .stopping .interrupting → m.now = since
  awaiting : ∀ deadline, l.phase = .stopping (.awaiting deadline) → m.now ≤ m.next ∧
    deadline = since + p.timeout.nanos ∧
    m.next ≤ since + p.rounded ∧ ∃ i, m.next = since + i * p.poll.nanos

/-- The exit is unknown, or it is to be announced, or there is an event to take. -/
def Staged (r : Run σ) : Prop :=
  r.supervisor.exit? = none ∨ r.isDraining = true ∨ r.inbox ≠ []

/-- No act comes too late: the exit is looked for in time, and announced in time. -/
lemma Waits.due {since : Nat} (h : Waits p m l since) (hl : m.run.course = .serving l)
    (hstaged : Staged m.run) (ht : Timely p m t a) : t ≤ since + p.longest ∧
      (l.phase ≠ .listening ∨ m.run.supervisor.exit? = none → t ≤ since + p.rounded) := by
  have hlongest : p.longest = p.rounded + p.drain.nanos := rfl
  rcases hphase : l.phase with _ | q
  · have hstop := h.stopping hphase
    rcases hexit : m.run.supervisor.exit? with _ | x
    · have hnow := ht.urgent (by simp [Run.isUrgent, hl, hstop, hexit])
      have hsoon := h.soon (.inr hexit)
      exact ⟨by omega, fun _ => by omega⟩
    · refine ⟨?_, by simp⟩
      rcases hstaged with hnone | hdrains | hinbox
      · cases hnone.symm.trans hexit
      · have hdrain := ht.drains hdrains
        have hrecorded := h.recorded_le
        omega
      · have hnow := ht.urgent (by simp [Run.isUrgent, hl, hphase, hinbox])
        exact hnow ▸ h.now_le
  · have hsoon := h.soon (.inl (by simp [hphase]))
    have hrounded : t ≤ since + p.rounded := by
      cases q with
      | interrupting | killing =>
        have hnow := ht.urgent (by simp [Run.isUrgent, hl, hphase])
        exact hnow ▸ hsoon
      | awaiting =>
        have hnext := ht.awaits (by simp [Run.isAwaiting, hl, hphase])
        exact hnext.trans (h.awaiting _ hphase).2.2.1
    exact ⟨by omega, fun _ => hrounded⟩

/-- The time at which the exit is recorded is bounded as the clock is, as long as it is unknown. -/
lemma recorded_step_le {n : Nat} (hrecorded : m.recorded ≤ n)
    (ht : m.run.supervisor.exit? = none → t ≤ n) : (m.step k t a).recorded ≤ n := by
  simp only [step]
  split
  · next hnone => exact ht (Option.isNone_iff_eq_none.mp hnone)
  · exact hrecorded

/-- Time passes, and the stop goes on. -/
lemma Waits.still {since : Nat} (h : Waits p m l since) (hl : m.run.course = .serving l)
    (hstaged : Staged m.run) (ht : Timely p m t a) (hnone : m.run.given? a = none) :
    Waits p (m.step k t a) l since := by
  obtain ⟨hlongest, hrounded⟩ := h.due hl hstaged ht
  refine ⟨hlongest, fun hsoon => hrounded (hsoon.imp_right exit_of_step),
    recorded_step_le h.recorded_le fun hexit => hrounded (.inr hexit), h.stopping,
    fun hphase => ?_, fun deadline hphase => ?_⟩
  · have hnow := ht.urgent (by simp [Run.isUrgent, hl, hphase])
    exact hnow.trans (h.interrupting hphase)
  · have hnext := ht.awaits (by simp [Run.isAwaiting, hl, hphase])
    simp only [step, hnone]
    exact ⟨hnext, (h.awaiting deadline hphase).2⟩

/-- A stop that has just been announced. -/
lemma Waits.fresh (hrecorded : m.recorded ≤ m.now) (ht : Timely p m t a)
    (hphase : l.phase = .listening ∧ l.stopping = true ∨ l.phase = .stopping .interrupting) :
    Waits p (m.step k t a) l t := by
  have hlater := ht.later
  have hold : (m.step k t a).recorded ≤ t := recorded_step_le (by omega) fun _ => le_rfl
  refine ⟨Nat.le_add_right _ _, fun _ => Nat.le_add_right _ _, hold.trans (Nat.le_add_right _ _),
    fun hlistens => ?_, fun _ => rfl, fun deadline hawaits => ?_⟩
  · obtain ⟨-, hstop⟩ | hinterrupts := hphase
    · exact hstop
    · cases hinterrupts.symm.trans hlistens
  · obtain ⟨hlistens, -⟩ | hinterrupts := hphase
    · cases hlistens.symm.trans hawaits
    · cases hinterrupts.symm.trans hawaits

/-- The stop goes on without a report, from one phase to the next. -/
lemma Waits.turn {since : Nat} (hpoll : 0 < l.policy.poll.nanos) (h : Waits l.policy m l since)
    (hl : m.run.course = .serving l) (hstaged : Staged m.run) (ht : Timely l.policy m t a)
    {i : Loop.Input} (hi : m.run.given? a = some i) {l' : Loop} {es : List Effect}
    (hturn : l.Turn i (.serving l') es) (hsilent : i.report? l.current = none)
    (hnext : ∀ r, i = .reply r → (m.step k t a).next = awake t (sleeps es)) :
    Waits l.policy (m.step k t a) l' since := by
  obtain ⟨hlongest, hsoon⟩ := h.due hl hstaged ht
  have hrecorded : (m.step k t a).recorded ≤ since + l.policy.rounded :=
    recorded_step_le h.recorded_le fun hexit => hsoon (.inr hexit)
  -- a stop that has succeeded listens again
  have hrelieved (hrounded : t ≤ since + l.policy.rounded) :
      Waits l.policy (m.step k t a) l.relieved since :=
    ⟨hlongest, fun _ => hrounded, hrecorded, fun _ => rfl, by simp [Loop.relieved],
      by simp [Loop.relieved]⟩
  cases hturn with
  | echo => cases hsilent
  | ask _ hq | moot _ hq =>
    rw [Loop.Input.report_request hq] at hsilent
    cases hsilent
  | refuse => cases hsilent
  | @interrupt began hphase =>
    obtain rfl : began = t := ht.interrupted began ((given_reply hi).2 began rfl)
    have hnow : began = since := by
      rw [← h.interrupting hphase]
      exact ht.urgent (by simp [Run.isUrgent, hl, hphase])
    have hrounded := hsoon (.inl (by simp [hphase]))
    have hlook : (m.step k began a).next = began := hnext _ rfl
    refine ⟨hlongest, fun _ => hrounded, hrecorded, by simp, by simp, fun deadline hq => ?_⟩
    obtain rfl : began + l.policy.timeout.nanos = deadline := by simpa using hq
    rw [hlook]
    exact ⟨le_rfl, by rw [hnow], hrounded, 0, by omega⟩
  | @await deadline now hphase hearly =>
    have hrounded := hsoon (.inl (by simp [hphase]))
    obtain ⟨rfl, hdue⟩ := ht.look now ((given_reply hi).1 now none rfl)
    have hdue : now = m.next := hdue (by simp [Run.isAwaiting, hl, hphase])
    obtain ⟨-, hdeadline, -, j, hj⟩ := h.awaiting deadline hphase
    have hwithin : j * l.policy.poll.nanos + l.policy.poll.nanos ≤ l.policy.rounded :=
      StopPolicy.interval_le_rounded hpoll (by omega)
    have hlook : (m.step k now a).next = now + l.policy.poll.nanos := hnext _ rfl
    refine ⟨hlongest, fun _ => hrounded, hrecorded, h.stopping, fun hq => ?_, fun d hq => ?_⟩
    · cases hphase.symm.trans hq
    · obtain rfl : deadline = d := by simpa [hphase] using hq
      rw [hlook]
      refine ⟨Nat.le_add_right _ _, hdeadline, by omega, j + 1, ?_⟩
      rw [Nat.succ_mul]
      omega
  | heed hphase | kill hphase =>
    exact hrelieved (hsoon (.inl (by simp [hphase])))
  | lose hphase =>
    have hrounded := hsoon (.inl (by simp [hphase]))
    exact ⟨hlongest, fun _ => hrounded, hrecorded, by simp, by simp, by simp⟩

end Timed

/-! ### Reports -/

/-- A report that announces a stop is followed by the next one within the given time. -/
def InTime (limit : Nat) (reports : List (Nat × Status)) : Prop :=
  reports.IsChain fun b t => b.2 = .stopPending → t.1 ≤ b.1 + limit

/-- A loop is in a request to stop only behind the report that announces it, and such a report comes
from a loop that has not failed to stop. -/
lemma Loop.Turn.announces {l l' : Loop} {i : Input} {es : List Effect}
    (h : l.Turn i (.serving l') es) :
    ((l.phase ≠ .listening → l.current = .stopPending) →
      l'.phase ≠ .listening → l'.current = .stopPending) ∧
    (i.report? l.current = some .stopPending →
      (l.phase = .listening → l.current = .stopPending → l.stopping = true) →
        l'.phase = .listening ∧ l'.stopping = true ∨ l'.phase = .stopping .interrupting) := by
  cases h with
  | echo hl => exact ⟨id, fun hreport hstop => .inl ⟨hl, hstop hl (Option.some.inj hreport)⟩⟩
  | ask => exact ⟨fun _ _ => rfl, fun _ _ => .inr rfl⟩
  | moot => exact ⟨fun _ _ => rfl, fun _ _ => .inl ⟨rfl, rfl⟩⟩
  | refuse => exact ⟨fun _ => absurd rfl, fun hreport => by cases hreport⟩
  | interrupt hl | lose hl =>
    exact ⟨fun hcur _ => hcur (by simp [hl]), fun hreport => by cases hreport⟩
  | await => exact ⟨id, fun hreport => by cases hreport⟩
  | heed | kill => exact ⟨fun _ => absurd rfl, fun hreport => by cases hreport⟩

/-- A loop keeps its policy. -/
lemma Loop.Turn.policy_eq {l l' : Loop} {i : Input} {es : List Effect}
    (h : l.Turn i (.serving l') es) : l'.policy = l.policy := by
  cases h <;> rfl

namespace Timed

variable {k : Sink σ} {p : StopPolicy} {m : Timed σ} {l : Loop} {t : Nat} {a : Act}

/-- The reports have come in time, and if the last one announces a stop, nothing is late by now. -/
structure Paced (p : StopPolicy) (m : Timed σ) : Prop where
  recorded_le : m.recorded ≤ m.now
  inTime : InTime p.longest m.reports
  last : ∀ since, m.reports.getLast? = some (since, .stopPending) →
    ∃ l, m.run.course = .serving l ∧ Waits p m l since
  serving : ∀ l, m.run.course = .serving l → l.policy = p ∧ ∃ since,
    m.reports.getLast? = some (since, l.current) ∧ (l.phase ≠ .listening → l.current = .stopPending)

lemma Paced.recorded_step_le (h : Paced p m) (ht : Timely p m t a) :
    (m.step k t a).recorded ≤ (m.step k t a).now :=
  Timed.recorded_step_le (h.recorded_le.trans ht.later) fun _ => le_rfl

lemma Paced.still (h : Paced p m) (hstaged : m.run.isOver = false → Staged m.run)
    (ht : Timely p m t a) (hnone : m.run.given? a = none) : Paced p (m.step k t a) := by
  obtain ⟨hcourse, hreports⟩ := step_still (k := k) (t := t) hnone
  refine ⟨h.recorded_step_le ht, ?_, fun since hlast => ?_, fun l hl => ?_⟩
  · rw [hreports]
    exact h.inTime
  · rw [hreports] at hlast
    obtain ⟨l, hl, hwaits⟩ := h.last since hlast
    have hover : m.run.isOver = false := by rw [Run.isOver_eq, hl]; rfl
    exact ⟨l, hcourse.trans hl, hwaits.still hl (hstaged hover) ht hnone⟩
  · rw [hreports]
    exact h.serving l (hcourse.symm.trans hl)

/-- A report comes in time, whatever it is. -/
lemma Paced.inTime_append (h : Paced p m) (hstaged : Staged m.run) (ht : Timely p m t a)
    (s : Status) :
    InTime p.longest (m.reports ++ [(t, s)]) := by
  refine List.isChain_append.mpr ⟨h.inTime, List.isChain_singleton _, fun b hb c hc hpending => ?_⟩
  obtain rfl : c = (t, s) := (Option.some.inj hc).symm
  obtain ⟨since, status⟩ := b
  obtain rfl : status = .stopPending := hpending
  obtain ⟨l', hl', hwaits⟩ := h.last since hb
  exact (hwaits.due hl' hstaged ht).1

/-- A turn without a report: the last one is still that of the loop. -/
lemma Paced.turn_silent (hpoll : 0 < p.poll.nanos) (h : Paced p m) (hl : m.run.course = .serving l)
    (hstaged : Staged m.run) (ht : Timely p m t a) {i : Loop.Input}
    (hi : m.run.given? a = some i) {l' : Loop} (hcourse : (m.step k t a).run.course = .serving l')
    {es : List Effect} (hturn : l.Turn i (.serving l') es)
    (hsilent : i.report? l.current = none) (hreports : (m.step k t a).reports = m.reports)
    (hlook : ∀ r, i = .reply r → (m.step k t a).next = awake t (sleeps es)) :
    Paced p (m.step k t a) := by
  obtain ⟨rfl, since, hsince, hcurrent⟩ := h.serving l hl
  have hnext : l'.current = l.current := by
    rw [hturn.next_report.2, hsilent, Option.getD_none]
  refine ⟨h.recorded_step_le ht, ?_, fun since' hlast => ?_, fun l'' hl'' => ?_⟩
  · rw [hreports]
    exact h.inTime
  · rw [hreports] at hlast
    obtain ⟨l'', hl'', hwaits⟩ := h.last since' hlast
    obtain rfl : l = l'' := Loop.Course.serving.inj (hl.symm.trans hl'')
    exact ⟨l', hcourse, hwaits.turn hpoll hl hstaged ht hi hturn hsilent hlook⟩
  · obtain rfl : l' = l'' := Loop.Course.serving.inj (hcourse.symm.trans hl'')
    rw [hreports, hnext]
    exact ⟨hturn.policy_eq, since, hsince,
      fun hstops => hnext ▸ hturn.announces.1 hcurrent hstops⟩

/-- A turn with a report, which may announce a stop. -/
lemma Paced.turn_reported (h : Paced p m) (hl : m.run.course = .serving l)
    (hstaged : Staged m.run) (ht : Timely p m t a) {i : Loop.Input} {l' : Loop}
    (hcourse : (m.step k t a).run.course = .serving l') {es : List Effect}
    (hturn : l.Turn i (.serving l') es) {s : Status} (hreport : i.report? l.current = some s)
    (hreports : (m.step k t a).reports = m.reports ++ [(t, s)]) : Paced p (m.step k t a) := by
  obtain ⟨hpolicy, since, hsince, hcurrent⟩ := h.serving l hl
  have hnext : l'.current = s := by
    rw [hturn.next_report.2, hreport, Option.getD_some]
  obtain ⟨hphase, hannounces⟩ := hturn.announces
  have hlast : (m.step k t a).reports.getLast? = some (t, s) := by
    rw [hreports, List.getLast?_concat]
  refine ⟨h.recorded_step_le ht, ?_, fun since' hlast' => ?_, fun l'' hl'' => ?_⟩
  · rw [hreports]
    exact h.inTime_append hstaged ht s
  · obtain ⟨rfl, rfl⟩ := Prod.mk.inj (Option.some.inj (hlast.symm.trans hlast'))
    refine ⟨l', hcourse, .fresh h.recorded_le ht ?_⟩
    refine hannounces hreport fun hlistens hpending => ?_
    obtain ⟨l'', hl'', hwaits⟩ := h.last since (hpending ▸ hsince)
    obtain rfl : l = l'' := Loop.Course.serving.inj (hl.symm.trans hl'')
    exact hwaits.stopping hlistens
  · obtain rfl : l' = l'' := Loop.Course.serving.inj (hcourse.symm.trans hl'')
    exact ⟨hturn.policy_eq.trans hpolicy, t, hnext ▸ hlast, hphase hcurrent⟩

/-- The turn that ends the loop. -/
lemma Paced.turn_ended (h : Paced p m) (hstaged : Staged m.run) (ht : Timely p m t a)
    {o : Outcome} (hcourse : (m.step k t a).run.course = .ended o) {x : ExitCode}
    (hreports : (m.step k t a).reports = m.reports ++ [(t, .stopped x)]) :
    Paced p (m.step k t a) := by
  refine ⟨h.recorded_step_le ht, ?_, fun since hlast => ?_, fun l hl => ?_⟩
  · rw [hreports]
    exact h.inTime_append hstaged ht _
  · rw [hreports, List.getLast?_concat] at hlast
    cases (Prod.mk.inj (Option.some.inj hlast)).2
  · cases hcourse.symm.trans hl

lemma Paced.turn (hpoll : 0 < p.poll.nanos) (h : Paced p m) (hl : m.run.course = .serving l)
    (hstaged : Staged m.run) (ht : Timely p m t a) {i : Loop.Input}
    (hi : m.run.given? a = some i) : Paced p (m.step k t a) := by
  obtain ⟨es, hturn, hreports, hlook⟩ := step_turn (k := k) (t := t) hl hi
  rcases hcourse : (m.step k t a).run.course with l' | o
  · rw [hcourse] at hturn
    rw [hturn.next_report.1] at hreports
    rcases hreport : i.report? l.current with _ | s
    · rw [hreport, Option.toList_none, List.map_nil, List.append_nil] at hreports
      exact h.turn_silent hpoll hl hstaged ht hi hcourse hturn hreport hreports hlook
    · rw [hreport, Option.toList_some, List.map_singleton] at hreports
      exact h.turn_reported hl hstaged ht hcourse hturn hreport hreports
  · rw [hcourse] at hturn
    rw [hturn.last_report.1, List.map_singleton] at hreports
    exact h.turn_ended hstaged ht hcourse hreports

lemma Paced.step (hpoll : 0 < p.poll.nanos) (h : Paced p m)
    (hstaged : m.run.isOver = false → Staged m.run) (ht : Timely p m t a) :
    Paced p (m.step k t a) := by
  rcases hi : m.run.given? a with _ | i
  · exact h.still hstaged ht hi
  · rcases hl : m.run.course with l | o
    · have hover : m.run.isOver = false := by rw [Run.isOver_eq, hl]; rfl
      exact h.turn hpoll hl (hstaged hover) ht hi
    · have htakes := (Option.filter_eq_some_iff.mp hi).2
      rw [hl] at htakes
      cases htakes

/-! ### A run from its start -/

variable {s : Supervisor σ} {w : Surroundings} {queued : List Request}

lemma staged_behind {as : List Act} (hno : .lose ∉ as)
    (hover : ((Run.startBehind k s w queued).run k as).isOver = false) :
    Staged ((Run.startBehind k s w queued).run k as) := by
  rcases hresult : (s.start w).result with e | pid
  · have hended : (Run.startBehind k s w queued).isOver = true := by
      rw [Run.isOver_eq, Run.startBehind_course, hresult]
      rfl
    rw [Run.isOver_run k hended] at hover
    cases hover
  · obtain ⟨b, hb, hwait, hexit⟩ := Run.start_waits (k := k) hresult
    have htells₀ : Tells b (Run.startBehind k s w queued).isOver [] := by
      unfold Tells
      rw [hwait]
      exact ⟨hexit, rfl⟩
    have halive : b.waiter ≠ .lost := by
      rw [hwait]
      simp
    obtain ⟨c, hc, htells⟩ := Run.run_tells k (r := Run.startBehind k s w queued) hb htells₀ as
    obtain ⟨c', hc', hlost⟩ :=
      Run.run_not_lost k (r := Run.startBehind k s w queued) hb halive hno
    obtain rfl : c = c' := Option.some.inj (hc.symm.trans hc')
    obtain ⟨pid', exit, forwarder, waiter⟩ := c
    rcases waiter with _ | result | _ | _
    · left
      rw [Supervisor.exit?, hc]
      exact htells.1
    · right
      left
      simp [Run.isDraining, hc]
    · right
      right
      obtain ⟨result, -, hnews | ⟨habsurd, -⟩⟩ := htells
      · rw [List.nil_append] at hnews
        have hmem : result ∈ ((Run.startBehind k s w queued).sent k as).filterMap Event.news? := by
          rw [hnews]
          exact List.mem_singleton_self result
        exact List.ne_nil_of_mem (Run.news_left hover hmem)
      · rw [hover] at habsurd
        cases habsurd
    · exact absurd rfl hlost

lemma start_paced (t : Nat) : Paced s.policy (start k s w queued t) := by
  have hcourse : (start k s w queued t).run.course = Run.startCourse s (s.start w).result :=
    Run.startBehind_course k s w queued
  have hreports : (start k s w queued t).reports =
      (statuses (Run.startEffects s (s.start w).result)).map (t, ·) :=
    congrArg (List.map _) (Run.startBehind_statuses k s w queued)
  rcases hresult : (s.start w).result with e | pid
  · rw [hresult] at hcourse hreports
    refine ⟨le_rfl, ?_, fun since hlast => ?_, fun l hl => ?_⟩
    · rw [hreports]
      exact List.isChain_singleton _
    · rw [hreports] at hlast
      cases (Prod.mk.inj (Option.some.inj hlast)).2
    · cases hcourse.symm.trans hl
  · rw [hresult] at hcourse hreports
    refine ⟨le_rfl, ?_, fun since hlast => ?_, fun l hl => ?_⟩
    · rw [hreports]
      exact List.isChain_pair.mpr fun hpending => by cases hpending
    · rw [hreports] at hlast
      cases (Prod.mk.inj (Option.some.inj hlast)).2
    · obtain rfl := Loop.Course.serving.inj (hcourse.symm.trans hl)
      exact ⟨rfl, t, by rw [hreports]; rfl, fun hphase => absurd rfl hphase⟩

/-- **No report is later than the longest stop allows.** -/
theorem runAll_paced (hpoll : 0 < s.policy.poll.nanos) {t : Nat} {xs : List (Nat × Act)}
    (h : Keeps k s.policy (start k s w queued t) xs) :
    Paced s.policy ((start k s w queued t).runAll k xs) := by
  induction xs using List.reverseRecOn with
  | nil => exact start_paced t
  | append_singleton xs x ih =>
    obtain ⟨hbefore, htimely, -⟩ := (keeps_append _ _ _).mp h
    rw [runAll_append]
    refine (ih hbefore).step hpoll (fun hover => ?_) htimely
    rw [runAll_run] at hover ⊢
    exact staged_behind hbefore.not_lose hover

/-! ### The longest stop -/

/-- Where the loop of a run, its inbox and its agent stand. -/
structure Stands (m : Timed σ) (l : Loop) (es : List Event) (b : Attached) : Prop where
  course : m.run.course = .serving l
  inbox : m.run.inbox = es
  attached : m.run.supervisor.attached = some b

variable {es : List Event} {b : Attached}

lemma Stands.exit (h : Stands m l es b) : m.run.supervisor.exit? = b.exit := by
  rw [Supervisor.exit?, h.attached, Option.bind_some]

lemma Stands.isDraining (h : Stands m l es b) (hwaiter : ∀ result, b.waiter ≠ .draining result) :
    m.run.isDraining = false := by
  obtain ⟨pid, exit, forwarder, waiter⟩ := b
  cases waiter with
  | draining result => exact absurd rfl (hwaiter result)
  | _ => simp [Run.isDraining, h.attached]

/-- An act may come at once, with a right reading of the clock, if the loop does not wait for the
exit, nor the waiter for the stream. -/
lemma Stands.present (h : Stands m l es b) (hphase : ∀ d, l.phase ≠ .stopping (.awaiting d))
    (hwaiter : ∀ result, b.waiter ≠ .draining result) (ha : a ≠ .lose)
    (hlook : ∀ now, a = .look now → now = m.now)
    (hinterrupted : ∀ began, a = .interrupted (.ok began) → began = m.now) :
    Timely p m m.now a := by
  have hawaits : m.run.isAwaiting = false := by
    rw [Run.isAwaiting, h.course]
    dsimp only
    split
    · next d hd => exact absurd hd (hphase d)
    · rfl
  have hdrains := h.isDraining hwaiter
  exact ⟨le_rfl, fun _ => rfl, by simp [hawaits],
    fun now hnow => ⟨hlook now hnow, by simp [hawaits]⟩, hinterrupted, by simp [hdrains],
    by simp [hdrains], ha⟩

/-- A reply moves the loop on, and nothing else. -/
lemma Stands.reply (h : Stands m l es b) {i : Stop.Reply}
    (ha : m.run.step k a = m.run.input k (.reply i)) (hoffer : m.run.offer? a = some (.reply i))
    (htakes : l.takes (.reply i) = true) {l' : Loop} {fs : List Effect}
    (hstep : l.step (.reply i) = (.serving l', fs)) (hsilent : statuses fs = []) :
    Stands (m.step k t a) l' es b ∧ (m.step k t a).reports = m.reports ∧
      (m.step k t a).next = awake t (sleeps fs) := by
  have hcourse : m.run.course.step (.reply i) = (.serving l', fs) := by
    rw [h.course]
    exact hstep
  have hgiven : m.run.given? a = some (.reply i) := by
    rw [Run.given?, hoffer, h.course]
    exact Option.filter_eq_some_iff.mpr ⟨rfl, htakes⟩
  obtain ⟨fs', hturn, hreports, hnext⟩ := step_turn (k := k) (t := t) h.course hgiven
  obtain rfl : fs = fs' := (Prod.mk.inj (hstep.symm.trans hturn.step_eq)).2
  refine ⟨⟨?_, ?_, ?_⟩, ?_, hnext i rfl⟩
  · exact (congrArg Run.course ha).trans (congrArg Prod.fst hcourse)
  · exact (congrArg Run.inbox ha).trans h.inbox
  · exact (congrArg (·.supervisor.attached) ha).trans h.attached
  · rw [hreports, hsilent, List.map_nil, List.append_nil]

/-- `n` looks at the exit, from the time `t` on. -/
def looks (p : StopPolicy) (t : Nat) : Nat → List (Nat × Act)
  | 0 => []
  | n + 1 => (t, .look t) :: looks p (t + p.poll.nanos) n

/-- Looks before the deadline that find no exit have the loop sleep, and nothing else. -/
lemma keeps_looks {deadline : Nat} (h : Stands m l es b) (hpolicy : l.policy = p)
    (hphase : l.phase = .stopping (.awaiting deadline)) (hstopping : l.stopping = false)
    (hexit : b.exit = none) (hwaiter : ∀ result, b.waiter ≠ .draining result)
    (hnow : m.now ≤ m.next) {n : Nat} (hn : ∀ i < n, m.next + i * p.poll.nanos < deadline) :
    let xs := looks p m.next n
    let m' := m.runAll k xs
    Keeps k p m xs ∧ Stands m' l es b ∧ m'.reports = m.reports ∧ m'.now ≤ m'.next ∧
      m'.next = m.next + n * p.poll.nanos := by
  subst hpolicy
  induction n generalizing m with
  | zero => exact ⟨trivial, h, rfl, hnow, by rw [Nat.zero_mul]; rfl⟩
  | succ n ih =>
    have hnone : m.run.supervisor.exit? = none := h.exit.trans hexit
    have hearly : m.next < deadline := by simpa using hn 0 (Nat.succ_pos n)
    have hdrains := h.isDraining hwaiter
    have hcalm : m.run.isUrgent = false := by
      simp [Run.isUrgent, h.course, hphase, hstopping]
    have htimely : Timely l.policy m m.next (.look m.next) :=
      ⟨hnow, by simp [hcalm], fun _ => le_rfl,
        fun now hlook => ⟨(Act.look.inj hlook).symm, fun _ => rfl⟩, by simp, by simp [hdrains],
        by simp, by simp⟩
    obtain ⟨hstands, hreports, hnext⟩ := h.reply (k := k) (t := m.next) (a := .look m.next)
      (i := .looked m.next none) (by rw [Run.step, hnone]) (by rw [Run.offer?, hnone])
      (by simp [Loop.takes, hphase]) (Loop.Turn.await hphase hearly).step_eq rfl
    have hnext : (m.step k m.next (.look m.next)).next = m.next + l.policy.poll.nanos := hnext
    have hthen : (m.step k m.next (.look m.next)).now ≤
        (m.step k m.next (.look m.next)).next := by
      rw [hnext]
      exact Nat.le_add_right _ _
    obtain ⟨hkeeps, hstands', hreports', hnow', hnext'⟩ := ih hstands hthen (by
      rw [hnext]
      intro i hi
      have hlater := hn (i + 1) (Nat.succ_lt_succ hi)
      rw [Nat.succ_mul] at hlater
      omega)
    rw [hnext] at hkeeps hstands' hreports' hnow' hnext'
    refine ⟨⟨htimely, hkeeps⟩, hstands', hreports'.trans hreports, hnow', hnext'.trans ?_⟩
    rw [Nat.succ_mul]
    omega

/-- The budget is spent, and the agent is killed and dies at once. -/
lemma keeps_death {pid deadline : Nat} {f : Diagnostics.Forwarder}
    (h : Stands m ⟨pid, p, .stopping (.awaiting deadline), .stopPending, false⟩ []
      ⟨pid, none, f, .waiting⟩)
    (hnow : m.now ≤ m.next) (hdeadline : deadline ≤ m.next) :
    let xs := [(m.next, .look m.next), (m.next, .killed (.ok ())),
      (m.next, .exit (.ok (.signaled 9)))]
    let n := m.runAll k xs
    Keeps k p m xs ∧
      Stands n ⟨pid, p, .listening, .stopPending, true⟩ []
        ⟨pid, some (.signaled 9), f, .draining (.ok (.signaled 9))⟩ ∧
      n.now = m.next ∧ n.recorded = m.next ∧ n.reports = m.reports := by
  have hexit : m.run.supervisor.exit? = none := h.exit
  -- the budget is spent
  let m₁ := m.step k m.next (.look m.next)
  have ht₁ : Timely p m m.next (.look m.next) :=
    ⟨hnow, by simp [Run.isUrgent, h.course], fun _ => le_rfl,
      fun now hlook => ⟨(Act.look.inj hlook).symm, fun _ => rfl⟩, by simp,
      by simp [Run.isDraining, h.attached], by simp, by simp⟩
  obtain ⟨h₁, hr₁, -⟩ := h.reply (k := k) (t := m.next) (a := .look m.next)
    (i := .looked m.next none) (by rw [Run.step, hexit]) (by rw [Run.offer?, hexit]) rfl
    (Loop.Turn.lose rfl hdeadline).step_eq rfl
  have h₁ : Stands m₁ ⟨pid, p, .stopping .killing, .stopPending, false⟩ []
      ⟨pid, none, f, .waiting⟩ := h₁
  -- the agent is killed
  let m₂ := m₁.step k m.next (.killed (.ok ()))
  have ht₂ : Timely p m₁ m.next (.killed (.ok ())) :=
    h₁.present (by simp) (by simp) (by simp) (by simp) (by simp)
  obtain ⟨h₂, hr₂, -⟩ : Stands m₂ ⟨pid, p, .listening, .stopPending, true⟩ []
      ⟨pid, none, f, .waiting⟩ ∧ m₂.reports = m₁.reports ∧ _ :=
    h₁.reply (i := .killed (.ok ())) rfl rfl rfl rfl rfl
  have hexit₂ : m₂.run.supervisor.exit? = none := h₂.exit
  -- its end is recorded at once
  let m₃ := m₂.step k m.next (.exit (.ok (.signaled 9)))
  have ht₃ : Timely p m₂ m.next (.exit (.ok (.signaled 9))) :=
    h₂.present (by simp) (by simp) (by simp) (by simp) (by simp)
  have h₃ : Stands m₃ ⟨pid, p, .listening, .stopPending, true⟩ []
      ⟨pid, some (.signaled 9), f, .draining (.ok (.signaled 9))⟩ :=
    ⟨h₂.course, h₂.inbox,
      congrArg Supervisor.attached (Supervisor.onAttached_of_some h₂.attached _)⟩
  have hr₃ : m₃.reports = m₂.reports := (step_still rfl).2
  have hrecorded : m₃.recorded = m.next := by simp [m₃, step, hexit₂]
  exact ⟨⟨ht₁, ht₂, ht₃, trivial⟩, h₃, rfl, hrecorded, hr₃.trans (hr₂.trans hr₁)⟩

/-- The exit is announced at the end of the drain, and the loop ends. -/
lemma keeps_draining {pid : Nat} {f : Diagnostics.Forwarder}
    (h : Stands m ⟨pid, p, .listening, .stopPending, true⟩ []
      ⟨pid, some (.signaled 9), f, .draining (.ok (.signaled 9))⟩)
    (hnow : m.now = m.recorded) :
    let t := m.recorded + p.drain.nanos
    Keeps k p m [(t, .announceLate), (t, .receive)] ∧
      (m.runAll k [(t, .announceLate), (t, .receive)]).reports =
        m.reports ++ [(t, .stopped .ok)] := by
  intro t
  let m₁ := m.step k t .announceLate
  have ht₁ : Timely p m t .announceLate :=
    ⟨hnow ▸ Nat.le_add_right _ _,
      by simp [Run.isUrgent, h.course, h.inbox, Supervisor.exit?, h.attached],
      by simp [Run.isAwaiting, h.course], by simp, by simp, fun _ => le_rfl, fun _ _ => rfl,
      by simp⟩
  have h₁ : Stands m₁ ⟨pid, p, .listening, .stopPending, true⟩
      [.agentGone (.ok (.signaled 9))] ⟨pid, some (.signaled 9), f, .announced⟩ := by
    have hannounce : m₁.run = (m.run.announce true) := rfl
    have hrun : m.run.announce true = { m.run with
        supervisor := { m.run.supervisor with
          attached := some ⟨pid, some (.signaled 9), f, .announced⟩ }
        inbox := [.agentGone (.ok (.signaled 9))] } := by
      simp [Run.announce, Supervisor.announce, h.attached, Run.post, Run.isOver, h.course, h.inbox]
    rw [hrun] at hannounce
    exact ⟨hannounce ▸ h.course, congrArg Run.inbox hannounce,
      congrArg (·.supervisor.attached) hannounce⟩
  have hr₁ : m₁.reports = m.reports := (step_still rfl).2
  -- the loop ends
  have ht₂ : Timely p m₁ t .receive :=
    h₁.present (by simp) (by simp) (by simp) (by simp) (by simp)
  have hgiven : m₁.run.given? .receive =
      some (.event (.agentGone (.ok (.signaled 9))) m₁.run.supervisor.exit?) := by
    simp [Run.given?, Run.offer?, h₁.inbox, h₁.course, Loop.Course.takes, Loop.takes]
  obtain ⟨fs, hturn, hr₂, -⟩ := step_turn (k := k) (t := m.recorded + p.drain.nanos)
    h₁.course hgiven
  have hfs : statuses fs = [.stopped .ok] := by
    generalize (m₁.step k t .receive).run.course = c at hturn
    cases hturn with
    | part hl => exact (Loop.Turn.part (x := none) hl).last_report.1
  refine ⟨⟨ht₁, ht₂, trivial⟩, hr₂.trans ?_⟩
  rw [hr₁, hfs]
  rfl

/-- The agent is killed when the budget is spent, and its exit is announced without its stream. -/
def killing (p : StopPolicy) (t : Nat) : List (Nat × Act) :=
  [(t, .look t), (t, .killed (.ok ())), (t, .exit (.ok (.signaled 9))),
    (t + p.drain.nanos, .announceLate), (t + p.drain.nanos, .receive)]

lemma keeps_killing {pid deadline : Nat} {f : Diagnostics.Forwarder}
    (h : Stands m ⟨pid, p, .stopping (.awaiting deadline), .stopPending, false⟩ []
      ⟨pid, none, f, .waiting⟩)
    (hnow : m.now ≤ m.next) (hdeadline : deadline ≤ m.next) :
    Keeps k p m (killing p m.next) ∧ (m.runAll k (killing p m.next)).reports =
      m.reports ++ [(m.next + p.drain.nanos, .stopped .ok)] := by
  obtain ⟨hdeath, hstands, hpresent, hrecorded, hreports⟩ := keeps_death (k := k) h hnow hdeadline
  obtain ⟨hdrain, hstopped⟩ := keeps_draining (k := k) hstands (hpresent.trans hrecorded.symm)
  rw [hrecorded] at hdrain hstopped
  rw [hreports] at hstopped
  exact ⟨(keeps_append m _ [_, _]).mpr ⟨hdeath, hdrain⟩, hstopped⟩

/-- A stop is requested, and the agent interrupted, at once. -/
def opening : List (Nat × Act) := [(0, .request .stop), (0, .receive), (0, .interrupted (.ok 0))]

lemma keeps_opening (p : StopPolicy) (agent : String) (arguments : List String) :
    let m := start Memory.sink (.idle agent arguments p (.empty none)) (silent 7) [] 0
    let m' := m.runAll Memory.sink opening
    Keeps Memory.sink p m opening ∧
      Stands m' ⟨7, p, .stopping (.awaiting (0 + p.timeout.nanos)), .stopPending, false⟩ []
        ⟨7, none, .reading (.ofReads [] true), .waiting⟩ ∧
      m'.now = 0 ∧ m'.next = 0 ∧
      m'.reports = [(0, .startPending), (0, .running), (0, .stopPending)] := by
  intro m m'
  -- the request is sent
  have h : Stands m ⟨7, p, .listening, .running, false⟩ []
      ⟨7, none, .reading (.ofReads [] true), .waiting⟩ := ⟨rfl, rfl, rfl⟩
  have ht : Timely p m 0 (.request .stop) :=
    h.present (by simp) (by simp) (by simp) (by simp) (by simp)
  -- it is taken
  let m₁ := m.step Memory.sink 0 (.request .stop)
  have h₁ : Stands m₁ ⟨7, p, .listening, .running, false⟩ [.request .stop]
      ⟨7, none, .reading (.ofReads [] true), .waiting⟩ := ⟨rfl, rfl, rfl⟩
  have ht₁ : Timely p m₁ 0 .receive :=
    h₁.present (by simp) (by simp) (by simp) (by simp) (by simp)
  -- the agent is interrupted
  let m₂ := m₁.step Memory.sink 0 .receive
  have h₂ : Stands m₂ ⟨7, p, .stopping .interrupting, .stopPending, false⟩ []
      ⟨7, none, .reading (.ofReads [] true), .waiting⟩ := ⟨rfl, rfl, rfl⟩
  have ht₂ : Timely p m₂ 0 (.interrupted (.ok 0)) :=
    h₂.present (by simp) (by simp) (by simp) (by simp)
      fun _ hbegan => (Except.ok.inj (Act.interrupted.inj hbegan)).symm
  have hr₂ : m₂.reports = [(0, .startPending), (0, .running), (0, .stopPending)] := rfl
  obtain ⟨h₃, hr₃, hnext⟩ := h₂.reply (k := Memory.sink) (t := 0) (a := .interrupted (.ok 0))
    (i := .interrupted (.ok 0)) rfl rfl rfl rfl rfl
  exact ⟨⟨ht, ht₁, ht₂, trivial⟩, h₃, rfl, hnext, hr₃.trans hr₂⟩

/-- The stop of an agent that ignores the interrupt, and whose stream stays open. -/
def slowest (p : StopPolicy) : List (Nat × Act) :=
  opening ++ looks p 0 ((p.timeout.nanos + p.poll.nanos - 1) / p.poll.nanos) ++ killing p p.rounded

/-- **There is a stop that takes the longest time.** -/
theorem keeps_slowest (hpoll : 0 < p.poll.nanos) (agent : String) (arguments : List String) :
    let m := start Memory.sink (.idle agent arguments p (.empty none)) (silent 7) [] 0
    Keeps Memory.sink p m (slowest p) ∧ (m.runAll Memory.sink (slowest p)).reports =
      [(0, .startPending), (0, .running), (0, .stopPending), (p.longest, .stopped .ok)] := by
  intro m
  obtain ⟨hopening, h₁, hnow₁, hnext₁, hreports₁⟩ := keeps_opening p agent arguments
  let n := (p.timeout.nanos + p.poll.nanos - 1) / p.poll.nanos
  have hall : m.runAll Memory.sink (slowest p) =
      ((m.runAll Memory.sink opening).runAll Memory.sink (looks p 0 n)).runAll Memory.sink
        (killing p p.rounded) := by
    rw [← runAll_append, ← runAll_append]
    rfl
  rw [hall, slowest, keeps_append, keeps_append, runAll_append]
  clear hall
  generalize m.runAll Memory.sink opening = m₁ at h₁ hnow₁ hnext₁ hreports₁ ⊢
  -- the exit is looked for until the budget is spent
  obtain ⟨hlooks, h₂, hreports₂, hnow₂, hnext₂⟩ := keeps_looks (k := Memory.sink) (n := n) h₁ rfl
    rfl rfl rfl (by simp) (by rw [hnow₁, hnext₁]) fun i hi => by
      rw [hnext₁, Nat.zero_add, Nat.zero_add]
      exact StopPolicy.lt_timeout hpoll hi
  rw [hnext₁] at hlooks h₂ hreports₂ hnow₂ hnext₂
  -- then the agent is killed
  have hspent : (m₁.runAll Memory.sink (looks p 0 n)).next = p.rounded :=
    hnext₂.trans (Nat.zero_add _)
  obtain ⟨hkilling, hreports⟩ := keeps_killing (k := Memory.sink) h₂ hnow₂ (by
    rw [hspent, Nat.zero_add]
    exact StopPolicy.timeout_le_rounded hpoll)
  rw [hspent] at hkilling hreports
  refine ⟨⟨⟨hopening, hlooks⟩, hkilling⟩, hreports.trans ?_⟩
  rw [hreports₂, hreports₁]
  rfl

end Timed

end Service

end Warden
