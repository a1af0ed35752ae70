import Mathlib.Data.List.Chain
import Warden.Proofs.Session.Signals

/-!
How a stop waits for the exit.

A request reads the clock before it looks for the exit. Before the deadline a look that finds none
is followed by a sleep of one poll interval, and every other look ends the wait
(`Attempt.hear_look`). A sleep takes the clock on by the interval at least, so the looks are at
least as many intervals behind the interrupt as there were sleeps before them (`Spaced.add_le`): if
the interval is not zero, the wait is over after as many sleeps as intervals fit into the budget,
rounded up. All requests of a session wait so (`Session.run_polls`).
-/

namespace Warden

open Agent Log Service Diagnostics

/-! ### Looks and their times -/

/-- When a reply came, if it is a look. -/
def Service.Stop.Reply.time? : Stop.Reply → Option Nat
  | .looked now _ => some now
  | _ => none

/-- The times of the looks, in order. -/
def times (rs : List Stop.Reply) : List Nat := rs.filterMap Stop.Reply.time?

/-- Times from `began` on, with a sleep between any two of them. -/
structure Spaced (poll : Span) (began : Nat) (ts : List Nat) : Prop where
  began_le : ∀ t ∈ ts.head?, began ≤ t
  slept : ts.IsChain fun t t' => t + poll.nanos ≤ t'

variable {poll : Span} {began : Nat} {ts : List Nat}

lemma Spaced.tail {t : Nat} (h : Spaced poll began (t :: ts)) :
    Spaced poll (began + poll.nanos) ts := by
  have ht : began ≤ t := h.began_le t rfl
  cases ts with
  | nil => exact ⟨by simp, .nil⟩
  | cons t' ts =>
    obtain ⟨hnext, hslept⟩ := List.isChain_cons_cons.mp h.slept
    refine ⟨?_, hslept⟩
    rintro _ ⟨⟩
    omega

lemma Spaced.left {us : List Nat} (h : Spaced poll began (ts ++ us)) : Spaced poll began ts := by
  refine ⟨fun t ht => h.began_le t ?_, (List.isChain_append.mp h.slept).1⟩
  cases ts with
  | nil => cases ht
  | cons t ts => exact ht

/-- Every time lies behind as many intervals as times stand before it. -/
lemma Spaced.add_le (h : Spaced poll began ts) {i : Nat} (hi : i < ts.length) :
    began + i * poll.nanos ≤ ts[i] := by
  induction ts generalizing began i with
  | nil => cases hi
  | cons t ts ih =>
    have ht : began ≤ t := h.began_le t rfl
    cases i with
    | zero => simpa using ht
    | succ i =>
      have hlater := ih h.tail (i := i) (by simpa using hi)
      rw [Nat.succ_mul, List.getElem_cons_succ]
      omega

/-- The times before a deadline are no more than poll intervals fit into the budget, rounded up. -/
lemma Spaced.length_le (hpoll : 0 < poll.nanos) {budget : Span} (h : Spaced poll began ts)
    (hts : ∀ t ∈ ts, t < began + budget.nanos) :
    ts.length ≤ (budget.nanos + poll.nanos - 1) / poll.nanos := by
  by_contra hmany
  rw [Nat.not_le] at hmany
  generalize hrounds : (budget.nanos + poll.nanos - 1) / poll.nanos = rounds at hmany
  have hlast := h.add_le hmany
  have hbefore := hts _ (List.getElem_mem hmany)
  have hone : rounds + 1 ≤ rounds := by
    rw [← hrounds, Nat.le_div_iff_mul_le hpoll, hrounds, Nat.succ_mul]
    omega
  omega

namespace Attempt

/-! ### The sleeps of a request -/

variable {pid : Nat} {policy : StopPolicy} {t : Attempt}

/-- **A request sleeps one poll interval behind a look before the deadline that finds no exit**, and
every other look ends its wait. -/
theorem hear_look {deadline : Nat} (h : t.progress = .pending (.awaiting deadline)) (pid : Nat)
    (policy : StopPolicy) (now : Nat) (x : Option Exit) :
    let t' := t.hear pid policy (.looked now x)
    if now < deadline ∧ x = none then
      t'.progress = t.progress ∧ t'.sleeps = t.sleeps ++ [policy.poll]
    else (∀ d, t'.progress ≠ .pending (.awaiting d)) ∧ t'.sleeps = t.sleeps := by
  intro t'
  have htakes : t.takes (.looked now x) = true := by
    rw [takes, h]
    rfl
  obtain ⟨p, q, es, hp, hturn, hhear⟩ := hear_of_takes pid policy htakes
  obtain rfl : .awaiting deadline = p := by simpa [h] using hp
  have ht' : t' = ⟨q, t.deeds ++ es⟩ := hhear
  rw [ht', sleeps, Service.sleeps, List.filterMap_append, hp]
  cases hturn with
  | await hnow =>
    rw [if_pos ⟨hnow, rfl⟩]
    exact ⟨rfl, rfl⟩
  | heed =>
    rw [if_neg (by simp)]
    exact ⟨by simp, List.append_nil _⟩
  | lose hnow =>
    rw [if_neg fun hearly => hnow.not_gt hearly.1]
    exact ⟨by simp, List.append_nil _⟩

/-- No other reply makes a request sleep. -/
lemma hear_sleeps (pid : Nat) (policy : StopPolicy) (t : Attempt) (r : Stop.Reply) :
    (t.hear pid policy r).sleeps = t.sleeps ∨
      (t.hear pid policy r).sleeps = t.sleeps ++ [policy.poll] := by
  rcases htakes : t.takes r with _ | _
  · exact .inl (by rw [hear_of_not_takes _ _ htakes])
  · obtain ⟨p, q, es, -, hturn, hhear⟩ := hear_of_takes pid policy htakes
    rw [hhear, sleeps, Service.sleeps, List.filterMap_append]
    cases hturn with
    | await => exact .inr rfl
    | interrupt | refuse | heed | lose | kill | fail => exact .inl (List.append_nil _)

lemma begin_sleeps (agent : Option Attached) : (begin agent).sleeps = [] := by
  rcases agent with _ | ⟨pid, _ | x, forwarder, waiter⟩ <;> rfl

lemma times_lingering (began : Nat) (ts : List Nat) (rs : List Stop.Reply) :
    times (lingering began ts ++ rs) = ts ++ times rs := by
  rw [lingering, List.cons_append, times, List.filterMap_cons_none rfl, List.filterMap_append,
    List.filterMap_map]
  exact congrArg (· ++ _) (List.filterMap_some ..)

lemma length_sleeps (progress : Stop.Progress) (policy : StopPolicy) (n : Nat) {es : List Effect}
    (h : Service.sleeps es = []) :
    (⟨progress, waited policy n ++ es⟩ : Attempt).sleeps.length = n := by
  rw [sleeps, sleeps_waited, h, List.append_nil, List.length_replicate]

/-- A request has slept behind each of its looks before the deadline, and at most one look came
behind the last sleep. -/
lemma Way.looks {got : List Stop.Reply} (h : Way pid policy got t)
    (hbegan : .interrupted (.ok began) ∈ got) : ∃ ts last, times got = ts ++ last ∧
      last.length ≤ 1 ∧ (∀ t ∈ ts, t < began + policy.timeout.nanos) ∧
      t.sleeps.length = ts.length := by
  cases h with
  | interrupting | refused => simp at hbegan
  | @awaiting _ ts hts =>
    obtain rfl : began = _ := by simpa using hbegan
    rw [← List.append_nil (lingering began ts), ← List.append_nil (waited policy ts.length)]
    exact ⟨ts, [], times_lingering .., Nat.zero_le 1, hts, length_sleeps _ _ _ rfl⟩
  | @exited _ now ts x hts =>
    obtain rfl : began = _ := by simpa using hbegan
    exact ⟨ts, [now], times_lingering .., Nat.le_refl 1, hts, length_sleeps _ _ _ rfl⟩
  | @killing _ now ts hts hnow =>
    obtain rfl : began = _ := by simpa using hbegan
    exact ⟨ts, [now], times_lingering .., Nat.le_refl 1, hts, length_sleeps _ _ _ rfl⟩
  | @killed _ now ts hts hnow | @spared _ now ts hts hnow =>
    obtain rfl : began = _ := by simpa using hbegan
    rw [outlasting, List.append_assoc]
    exact ⟨ts, [now], times_lingering .., Nat.le_refl 1, hts, length_sleeps _ _ _ rfl⟩

end Attempt

/-! ### A session -/

namespace Session

variable {σ : Type}

/-- How the stop requests of a session wait for the exit. -/
structure Polls (k : Sink σ) (policy : StopPolicy) (s : Session σ) : Prop where
  /-- Every sleep takes one poll interval. -/
  sleeps : ∀ t ∈ s.attempts, ∀ d ∈ t.sleeps, d = policy.poll
  /-- The deadline is set one timeout behind the interrupt. -/
  deadline : ∀ t ts, s.attempts = t :: ts → t.progress = .pending .interrupting → ∀ now,
    ∃ t', (s.step k (.interrupted (.ok now))).attempts = t' :: ts ∧
      t'.progress = .pending (.awaiting (now + policy.timeout.nanos)) ∧ t'.sleeps = t.sleeps
  /-- A look before the deadline that finds no exit is followed by a sleep, and then the request
  waits on; every other look ends the wait. -/
  look : ∀ t ts deadline, s.attempts = t :: ts → t.progress = .pending (.awaiting deadline) →
    ∀ now, ∃ t', (s.step k (.look now)).attempts = t' :: ts ∧
      if now < deadline ∧ s.supervisor.exit? = none then
        t'.progress = t.progress ∧ t'.sleeps = t.sleeps ++ [policy.poll]
      else (∀ d, t'.progress ≠ .pending (.awaiting d)) ∧ t'.sleeps = t.sleeps
  /-- If the clock is not behind the sleeps, a request sleeps no more often than poll intervals
  fit into the timeout, rounded up, and looks at most once more. -/
  rounds : s.isBusy = false → ∀ bs, .stop ∉ bs →
    let got := (s.step k .stop).replies k bs
    let rounds := (policy.timeout.nanos + policy.poll.nanos - 1) / policy.poll.nanos
    ∀ began, .interrupted (.ok began) ∈ got → Spaced policy.poll began (times got) →
      (times got).length ≤ rounds + 1 ∧
        ∃ t, (s.run k (.stop :: bs)).attempts = t :: s.attempts ∧ t.sleeps.length ≤ rounds

variable {k : Sink σ} {s : Session σ}

lemma step_slept (s : Session σ) {p : Span} (hpoll : s.supervisor.policy.poll = p)
    (h : ∀ t ∈ s.attempts, ∀ d ∈ t.sleeps, d = p) (a : Act) :
    ∀ t ∈ (s.step k a).attempts, ∀ d ∈ t.sleeps, d = p := by
  obtain ⟨w, rfl⟩ | rfl | ⟨m, hm⟩ | ⟨r, hr⟩ := s.act_cases a
  · rw [step, start_attempts]
    exact h
  · rcases hb : s.isBusy with _ | _
    · rw [step, stop_of_idle hb]
      refine List.forall_mem_cons.mpr ⟨?_, h⟩
      rw [Attempt.begin_sleeps]
      simp
    · rw [step, stop_of_busy hb]
      exact h
  · rw [move_attempts k hm]
    exact h
  · rw [step_reply k hr]
    obtain ⟨hsame, -⟩ | ⟨t, ts, b, hts, hb⟩ := s.hear_cases r
    · rw [hsame]
      exact h
    · rw [hts] at h
      obtain ⟨hlatest, hearlier⟩ := List.forall_mem_cons.mp h
      rw [hear_of_some hts hb]
      refine List.forall_mem_cons.mpr ⟨?_, hearlier⟩
      obtain hsleeps | hsleeps := t.hear_sleeps b.pid s.supervisor.policy r
      · rw [hsleeps]
        exact hlatest
      · rw [hsleeps, List.forall_mem_append, List.forall_mem_singleton]
        exact ⟨hlatest, hpoll⟩

lemma run_slept (hs : s.Sound) {p : Span} (hpoll : s.supervisor.policy.poll = p)
    (h : ∀ t ∈ s.attempts, ∀ d ∈ t.sleeps, d = p) (as : List Act) :
    ∀ t ∈ (s.run k as).attempts, ∀ d ∈ t.sleeps, d = p := by
  induction as generalizing s with
  | nil => exact h
  | cons a as ih =>
    have hpolicy := (step_keeps k hs a).policy
    exact ih (step_sound k hs a) (by rw [hpolicy, hpoll]) (s.step_slept hpoll h a)

/-- A request that is under way has an agent to hear of. -/
lemma Sound.hears (hs : s.Sound) {t : Attempt} {ts : List Attempt} (hts : s.attempts = t :: ts)
    (hpending : t.isPending = true) (r : Stop.Reply) :
    ∃ pid, (s.hear r).attempts = t.hear pid s.supervisor.policy r :: ts := by
  obtain ⟨n, hn⟩ := hs.agent ((isBusy_cons hts).trans hpending)
  obtain ⟨b, hb, -⟩ := Option.map_eq_some_iff.mp hn
  exact ⟨b.pid, by rw [hear_of_some hts hb]⟩

/-- **A stop waits in sleeps of one poll interval**, behind every look before its deadline that
finds no exit, and behind no other. -/
theorem run_polls (k : Sink σ) (agent : String) (arguments : List String) {policy : StopPolicy}
    (hpoll : 0 < policy.poll.nanos) (sink : σ) (as : List Act) :
    ((Session.new (.idle agent arguments policy sink)).run k as).Polls k policy := by
  have hs₀ := new_sound agent arguments policy sink
  have hs := run_sound k hs₀ as
  have hpolicy := run_policy (k := k) hs₀ as
  have hslept := run_slept (k := k) hs₀ (p := policy.poll) rfl (fun t ht => by cases ht) as
  generalize (Session.new (.idle agent arguments policy sink)).run k as = s at hs hpolicy hslept
  obtain rfl : s.supervisor.policy = policy := hpolicy
  refine ⟨hslept, fun t ts hts hp now => ?_, fun t ts deadline hts hp now => ?_,
    fun hidle bs hbs => ?_⟩
  · obtain ⟨pid, hhear⟩ := hs.hears hts (by rw [Attempt.isPending, hp]) (.interrupted (.ok now))
    refine ⟨_, hhear, ?_⟩
    simp [Attempt.hear, hp, Stop.step, Attempt.sleeps]
  · obtain ⟨pid, hhear⟩ :=
      hs.hears hts (by rw [Attempt.isPending, hp]) (.looked now s.supervisor.exit?)
    exact ⟨_, hhear, Attempt.hear_look hp pid s.supervisor.policy now s.supervisor.exit?⟩
  · intro got rounds began hbegan hspaced
    by_cases halive : ∃ b, s.supervisor.attached = some b ∧ b.exit = none
    · obtain ⟨b, hb, hexit⟩ := halive
      obtain ⟨-, -, t, hattempts, hway⟩ := run_pursues (k := k) hs hidle hb hexit hbs
      obtain ⟨ts, last, htimes, hlast, hts, hsleeps⟩ := hway.looks hbegan
      have htimes : times got = ts ++ last := htimes
      rw [htimes] at hspaced ⊢
      have hmany : ts.length ≤ rounds := hspaced.left.length_le hpoll hts
      rw [List.length_append]
      exact ⟨by omega, t, hattempts, hsleeps ▸ hmany⟩
    · obtain ⟨-, hnone⟩ := run_moot (k := k) hidle (fun b hb hexit => halive ⟨b, hb, hexit⟩) hbs
      have hgot : got = [] := hnone
      rw [hgot] at hbegan
      cases hbegan

end Session

end Warden
