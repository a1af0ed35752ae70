import Warden.Proofs.Session.Requests
import Warden.Proofs.Supervisor

/-!
What the stop requests of a session signal.

A request that finds no agent, or its exit recorded, is over at once. Any other goes its way until
the next one is made (`Session.Pursues.run`). Signals are sent where a request begins and where its
budget is spent, both times only while an attached agent has no recorded exit
(`Session.step_signals`). The exit is recorded once and for all, and no signal comes behind it
(`Session.run_signals`). Kills are paid for by interrupts that have succeeded, and these by requests
(`Session.Balanced`).
-/

namespace Warden

open Agent Log Service Diagnostics

/-! ### The recorded exit -/

/-- Nothing is recorded before the waiter has learned how the agent ended. -/
def Attached.Tidy (a : Attached) : Prop := a.waiter = .waiting → a.exit = none

/-- `b` is the agent of `a`, with its exit, if one is recorded. -/
structure Attached.Keeps (a b : Attached) : Prop where
  pid : b.pid = a.pid
  exit : ∀ x, a.exit = some x → b.exit = some x
  tidy : b.Tidy

lemma Attached.Moves.keeps {b c : Attached} {m : Attached.Move}
    {told : Option (Except Fault Exit)} (h : b.Moves m c told) (hb : b.Tidy) : b.Keeps c := by
  obtain ⟨hpid, -, hshift⟩ := h
  cases hshift with
  | stay hx hw =>
    refine ⟨hpid, fun x hexit => hx.trans hexit, fun hwait => hx.trans (hb (hw.symm.trans hwait))⟩
  | learn hwait _ hw =>
    refine ⟨hpid, fun x hexit => ?_, fun hwait' => by cases hw.symm.trans hwait'⟩
    cases (hb hwait).symm.trans hexit
  | die _ hx hw | tell _ hx hw =>
    exact ⟨hpid, fun x hexit => hx.trans hexit, fun hwait => by cases hw.symm.trans hwait⟩

namespace Supervisor

variable {σ : Type}

def Tidy (s : Supervisor σ) : Prop := ∀ a, s.attached = some a → a.Tidy

/-- `t` has the agent of `s`, if there is one, with its exit, if one is recorded. -/
structure Keeps (s t : Supervisor σ) : Prop where
  policy : t.policy = s.policy
  pid : ∀ n, s.pid? = some n → t.pid? = some n
  exit : ∀ x, s.exit? = some x → t.exit? = some x
  tidy : t.Tidy

lemma Tidy.keeps {s : Supervisor σ} (h : s.Tidy) : s.Keeps s :=
  ⟨rfl, fun _ hn => hn, fun _ hx => hx, h⟩

lemma Keeps.of_none {s t : Supervisor σ} (hs : s.attached = none) (hp : t.policy = s.policy)
    (ht : t.Tidy) : s.Keeps t :=
  ⟨hp, by simp [pid?, hs], by simp [exit?, hs], ht⟩

lemma Keeps.of_some {s t : Supervisor σ} {a b : Attached} (hs : s.attached = some a)
    (ht : t.attached = some b) (hp : t.policy = s.policy) (h : a.Keeps b) : s.Keeps t where
  policy := hp
  pid n hn := by
    rw [pid?, hs] at hn
    rw [pid?, ht, ← hn, Option.map_some, h.pid, Option.map_some]
  exit x hx := by
    rw [exit?, hs] at hx
    rw [exit?, ht]
    exact h.exit x hx
  tidy a' ha' := by
    obtain rfl : b = a' := Option.some.inj (ht.symm.trans ha')
    exact h.tidy

lemma start_keeps {s : Supervisor σ} (h : s.Tidy) (w : Surroundings) :
    s.Keeps (s.start w).supervisor := by
  rcases hs : s.attached with _ | a
  · have hattempt := start_attempted hs w
    generalize s.start w = c at hattempt ⊢
    cases hattempt with
    | astray | missing | refused => exact h.keeps
    | launched => exact .of_none hs rfl fun a ha _ => by cases ha; rfl
  · rw [start_attached hs]
    exact h.keeps

lemma move_keeps (k : Sink σ) {s : Supervisor σ} (h : s.Tidy) (m : Attached.Move) :
    s.Keeps (s.move k m).1 := by
  rcases hs : s.attached with _ | b
  · rw [move_of_none k hs]
    exact h.keeps
  · obtain ⟨c, hmoves, hmove⟩ := move_of_some k hs m
    rw [hmove]
    exact .of_some hs rfl rfl (hmoves.keeps (h b hs))

end Supervisor

/-! ### A session -/

namespace Session

variable {σ : Type}

/-- The move of the agent that an act is, if it is one. -/
def Act.move? : Act → Option Attached.Move
  | .deliver d => some (.deliver d)
  | .close => some .close
  | .relay => some .relay
  | .exit result => some (.exit result)
  | .lose => some .lose
  | .announce late => some (.announce late)
  | _ => none

/-- What an act tells the request under way. -/
def reply? (s : Session σ) : Act → Option Stop.Reply
  | .look now => some (.looked now s.supervisor.exit?)
  | .interrupted result => some (.interrupted result)
  | .killed result => some (.killed result)
  | _ => none

/-- What an act tells the latest request, if it waits for it. -/
def given? (s : Session σ) (a : Act) : Option Stop.Reply :=
  (s.reply? a).filter fun r => s.attempts.head?.any (·.takes r)

/-- An act is a start, a stop, a move of the agent or a reply. -/
lemma act_cases (s : Session σ) (a : Act) :
    (∃ w, a = .start w) ∨ a = .stop ∨ (∃ m, a.move? = some m) ∨ ∃ r, s.reply? a = some r := by
  cases a with
  | start w => exact .inl ⟨w, rfl⟩
  | stop => exact .inr (.inl rfl)
  | deliver | close | relay | exit | lose | announce => exact .inr (.inr (.inl ⟨_, rfl⟩))
  | look | interrupted | killed => exact .inr (.inr (.inr ⟨_, rfl⟩))

lemma given_of_move {s : Session σ} {a : Act} {m : Attached.Move} (h : a.move? = some m) :
    s.given? a = none := by
  cases a with
  | deliver | close | relay | exit | lose | announce => rfl
  | _ => cases h

lemma hear_of_some {s : Session σ} {t : Attempt} {ts : List Attempt} {b : Attached}
    (hts : s.attempts = t :: ts) (hb : s.supervisor.attached = some b) (r : Stop.Reply) :
    s.hear r = { s with attempts := t.hear b.pid s.supervisor.policy r :: ts } := by
  rw [hear, hts, hb]

/-- A reply reaches the latest request, or nothing happens. -/
lemma hear_cases (s : Session σ) (r : Stop.Reply) :
    s.hear r = s ∧ (s.attempts = [] ∨ s.supervisor.attached = none) ∨
      ∃ t ts b, s.attempts = t :: ts ∧ s.supervisor.attached = some b := by
  rcases hts : s.attempts with _ | ⟨t, ts⟩
  · exact .inl ⟨by rw [hear, hts], .inl rfl⟩
  · rcases hb : s.supervisor.attached with _ | b
    · exact .inl ⟨by rw [hear, hts, hb], .inr rfl⟩
    · exact .inr ⟨t, ts, b, rfl, rfl⟩

lemma hear_supervisor (s : Session σ) (r : Stop.Reply) : (s.hear r).supervisor = s.supervisor := by
  unfold Session.hear
  split <;> rfl

lemma start_attempts (s : Session σ) (w : Surroundings) : (s.start w).attempts = s.attempts := by
  unfold Session.start
  split <;> rfl

lemma stop_of_idle {s : Session σ} (h : s.isBusy = false) :
    s.stop = { s with attempts := .begin s.supervisor.attached :: s.attempts } := by
  rw [Session.stop, h, if_neg Bool.false_ne_true]

lemma stop_of_busy {s : Session σ} (h : s.isBusy = true) : s.stop = s := by
  rw [Session.stop, h, if_pos rfl]

lemma isBusy_congr {s s' : Session σ} (h : s'.attempts = s.attempts) : s'.isBusy = s.isBusy := by
  rw [isBusy, isBusy, h]

lemma isBusy_cons {s : Session σ} {t : Attempt} {ts : List Attempt} (h : s.attempts = t :: ts) :
    s.isBusy = t.isPending := by
  rw [isBusy, h]
  rfl

variable (k : Sink σ)

/-- What the requests of a session get, in order. -/
def replies : Session σ → List Act → List Stop.Reply
  | _, [] => []
  | s, a :: as => (s.given? a).toList ++ replies (s.step k a) as

lemma step_reply {s : Session σ} {a : Act} {r : Stop.Reply} (h : s.reply? a = some r) :
    s.step k a = s.hear r := by
  cases a with
  | look | interrupted | killed =>
    obtain rfl := Option.some.inj h
    rfl
  | _ => cases h

lemma step_move {s : Session σ} {a : Act} {m : Attached.Move} (h : a.move? = some m) :
    s.step k a = { s with
      supervisor := (s.supervisor.move k m).1
      announced := s.announced ++ (s.supervisor.move k m).2.toList } := by
  cases a with
  | deliver | close | relay | exit | lose =>
    obtain rfl := Option.some.inj h
    simp only [step, Supervisor.move, Option.toList_none, List.append_nil]
  | announce late =>
    obtain rfl := Option.some.inj h
    obtain hsame | ⟨a, r, -, -, -, htell⟩ := s.supervisor.announce_cases late
    · simp only [step, Session.announce, Supervisor.move, hsame, Option.toList_none,
        List.append_nil]
    · simp only [step, Session.announce, Supervisor.move, htell, Option.toList_some]
  | _ => cases h

lemma move_attempts {s : Session σ} {a : Act} {m : Attached.Move} (h : a.move? = some m) :
    (s.step k a).attempts = s.attempts := by
  rw [step_move k h]

/-! ### What a session keeps -/

structure Sound (s : Session σ) : Prop where
  tidy : s.supervisor.Tidy
  /-- A request is under way only where there is an agent. -/
  agent : s.isBusy = true → ∃ n, s.supervisor.pid? = some n

lemma new_sound (agent : String) (arguments : List String) (policy : StopPolicy) (sink : σ) :
    (Session.new (.idle agent arguments policy sink)).Sound where
  tidy _ ha := by cases ha
  agent hbusy := by cases hbusy

/-- The supervisor keeps its agent and the recorded exit, whatever act comes. -/
lemma step_keeps {s : Session σ} (h : s.Sound) (a : Act) :
    s.supervisor.Keeps (s.step k a).supervisor := by
  obtain ⟨w, rfl⟩ | rfl | ⟨m, hm⟩ | ⟨r, hr⟩ := s.act_cases a
  · simp only [step, Session.start]
    split
    · exact h.tidy.keeps
    · exact Supervisor.start_keeps h.tidy w
  · simp only [step, Session.stop]
    split <;> exact h.tidy.keeps
  · rw [step_move k hm]
    exact Supervisor.move_keeps k h.tidy m
  · rw [step_reply k hr, hear_supervisor]
    exact h.tidy.keeps

lemma hear_isPending {pid : Nat} {policy : StopPolicy} {t : Attempt} {r : Stop.Reply}
    (h : (t.hear pid policy r).isPending = true) : t.isPending = true := by
  obtain ⟨progress, deeds⟩ := t
  rcases progress with p | result
  · rfl
  · exact h

lemma begin_isPending {agent : Option Attached} (h : (Attempt.begin agent).isPending = true) :
    ∃ a, agent = some a ∧ a.exit = none := by
  rcases agent with _ | ⟨pid, _ | x, forwarder, waiter⟩
  · cases h
  · exact ⟨_, rfl, rfl⟩
  · cases h

lemma step_sound {s : Session σ} (h : s.Sound) (a : Act) : (s.step k a).Sound := by
  have hkeeps := step_keeps k h a
  refine ⟨hkeeps.tidy, fun hbusy => ?_⟩
  have hold (hb : s.isBusy = true) : ∃ n, (s.step k a).supervisor.pid? = some n := by
    obtain ⟨n, hn⟩ := h.agent hb
    exact ⟨n, hkeeps.pid n hn⟩
  obtain ⟨w, rfl⟩ | rfl | ⟨m, hm⟩ | ⟨r, hr⟩ := s.act_cases a
  · exact hold ((isBusy_congr (start_attempts s w)).symm.trans hbusy)
  · rcases hb : s.isBusy with _ | _
    · rw [step, stop_of_idle hb] at hbusy ⊢
      obtain ⟨b, hattached, -⟩ := begin_isPending hbusy
      exact ⟨b.pid, by rw [Supervisor.pid?, hattached]; rfl⟩
    · exact hold hb
  · exact hold ((isBusy_congr (move_attempts k hm)).symm.trans hbusy)
  · refine hold ?_
    rw [step_reply k hr] at hbusy
    obtain ⟨hsame, -⟩ | ⟨t, ts, b, hts, hb⟩ := s.hear_cases r
    · rwa [hsame] at hbusy
    · rw [hear_of_some hts hb] at hbusy
      rw [isBusy_cons hts]
      exact hear_isPending hbusy

lemma run_sound {s : Session σ} (h : s.Sound) (as : List Act) : (s.run k as).Sound := by
  induction as generalizing s with
  | nil => exact h
  | cons a as ih => exact ih (step_sound k h a)

lemma run_policy {k : Sink σ} {s : Session σ} (h : s.Sound) (as : List Act) :
    (s.run k as).supervisor.policy = s.supervisor.policy := by
  induction as generalizing s with
  | nil => rfl
  | cons a as ih => exact (ih (step_sound k h a)).trans (step_keeps k h a).policy

/-! ### One request -/

/-- The latest request goes its way; it is one to stop the agent `pid`, and before it came `ts`. -/
structure Pursues (s : Session σ) (pid : Nat) (p : StopPolicy) (got : List Stop.Reply)
    (ts : List Attempt) : Prop where
  policy : s.supervisor.policy = p
  agent : s.supervisor.pid? = some pid
  way : ∃ t, s.attempts = t :: ts ∧ Attempt.Way pid p got t

variable {k} {s : Session σ} {pid : Nat} {p : StopPolicy} {got : List Stop.Reply}
  {ts : List Attempt}

lemma Pursues.step (hs : s.Sound) (h : s.Pursues pid p got ts) {a : Act} (ha : a ≠ .stop) :
    (s.step k a).Pursues pid p (got ++ (s.given? a).toList) ts := by
  have hkeeps := step_keeps k hs a
  refine ⟨hkeeps.policy.trans h.policy, hkeeps.pid _ h.agent, ?_⟩
  obtain ⟨t, hts, hway⟩ := h.way
  obtain ⟨w, rfl⟩ | rfl | ⟨m, hm⟩ | ⟨r, hr⟩ := s.act_cases a
  · exact ⟨t, (start_attempts s w).trans hts, (List.append_nil got).symm ▸ hway⟩
  · exact absurd rfl ha
  · rw [given_of_move hm]
    exact ⟨t, (move_attempts k hm).trans hts, (List.append_nil got).symm ▸ hway⟩
  · obtain ⟨b, hb, rfl⟩ := Option.map_eq_some_iff.mp h.agent
    have hattempts : (s.step k a).attempts = t.hear b.pid p r :: ts := by
      rw [step_reply k hr, hear_of_some hts hb, h.policy]
    have hgiven : s.given? a = (some r).filter t.takes := by
      simp [given?, hr, hts]
    rcases htakes : t.takes r with _ | _
    · have hnone : (some r).filter t.takes = none := by simp [htakes]
      rw [hgiven, hnone]
      refine ⟨t, ?_, (List.append_nil got).symm ▸ hway⟩
      rw [hattempts, Attempt.hear_of_not_takes _ _ htakes]
    · have hsome : (some r).filter t.takes = some r :=
        Option.filter_eq_some_iff.mpr ⟨rfl, htakes⟩
      rw [hgiven, hsome]
      exact ⟨_, hattempts, hway.hear htakes⟩

/-- Until the next request is made the latest one goes its way. -/
lemma Pursues.run (hs : s.Sound) (h : s.Pursues pid p got ts) {bs : List Act}
    (hbs : .stop ∉ bs) : (s.run k bs).Pursues pid p (got ++ s.replies k bs) ts := by
  induction bs generalizing s got with
  | nil => exact (List.append_nil got).symm ▸ h
  | cons a bs ih =>
    rw [List.mem_cons, not_or] at hbs
    have hrest := ih (step_sound k hs a) (h.step hs (Ne.symm hbs.1)) hbs.2
    rw [List.append_assoc] at hrest
    exact hrest

lemma given_of_idle (h : s.isBusy = false) (a : Act) : s.given? a = none := by
  rcases hr : s.reply? a with _ | r
  · rw [given?, hr]
    rfl
  · rcases hts : s.attempts with _ | ⟨⟨p | result, deeds⟩, ts⟩
    · simp [given?, hr, hts]
    · rw [isBusy_cons hts] at h
      cases h
    · simp [given?, hr, hts, Attempt.takes]

/-- Where no request is under way none changes. -/
lemma step_idle (h : s.isBusy = false) {a : Act} (ha : a ≠ .stop) :
    (s.step k a).attempts = s.attempts := by
  obtain ⟨w, rfl⟩ | rfl | ⟨m, hm⟩ | ⟨r, hr⟩ := s.act_cases a
  · exact start_attempts s w
  · exact absurd rfl ha
  · exact move_attempts k hm
  · rw [step_reply k hr]
    obtain ⟨hsame, -⟩ | ⟨⟨p | result, deeds⟩, ts, b, hts, hb⟩ := s.hear_cases r
    · exact congrArg attempts hsame
    · rw [isBusy_cons hts] at h
      cases h
    · rw [hear_of_some hts hb, hts]
      rfl

lemma run_idle (h : s.isBusy = false) {bs : List Act} (hbs : .stop ∉ bs) :
    (s.run k bs).attempts = s.attempts ∧ s.replies k bs = [] := by
  induction bs generalizing s with
  | nil => exact ⟨rfl, rfl⟩
  | cons a bs ih =>
    rw [List.mem_cons, not_or] at hbs
    have hsame := step_idle (k := k) h (Ne.symm hbs.1)
    obtain ⟨hattempts, hreplies⟩ := ih ((isBusy_congr hsame).trans h) hbs.2
    refine ⟨hattempts.trans hsame, ?_⟩
    rw [replies, given_of_idle h, hreplies]
    rfl

/-- A request that finds nothing to stop is over at once. -/
lemma run_moot (hidle : s.isBusy = false)
    (h : ∀ b, s.supervisor.attached = some b → b.exit ≠ none) {bs : List Act} (hbs : .stop ∉ bs) :
    ((s.step k .stop).run k bs).attempts = ⟨.done (.ok ()), []⟩ :: s.attempts ∧
      (s.step k .stop).replies k bs = [] := by
  have hstop : (s.step k .stop).attempts = ⟨.done (.ok ()), []⟩ :: s.attempts := by
    rw [step, stop_of_idle hidle]
    rcases hb : s.supervisor.attached with _ | ⟨pid, _ | x, forwarder, waiter⟩
    · rfl
    · exact absurd rfl (h _ hb)
    · rfl
  obtain ⟨hattempts, hnone⟩ := run_idle (k := k) (isBusy_cons hstop) hbs
  exact ⟨hattempts.trans hstop, hnone⟩

/-- A request that finds an agent without an exit goes its way. -/
lemma run_pursues (hs : s.Sound) (hidle : s.isBusy = false) {b : Attached}
    (hb : s.supervisor.attached = some b) (hexit : b.exit = none) {bs : List Act}
    (hbs : .stop ∉ bs) : ((s.step k .stop).run k bs).Pursues b.pid s.supervisor.policy
      ((s.step k .stop).replies k bs) s.attempts := by
  have hstop : s.step k .stop =
      { s with attempts := ⟨.pending .interrupting, [.interrupt]⟩ :: s.attempts } := by
    obtain ⟨pid, exit, forwarder, waiter⟩ := b
    obtain rfl : exit = none := hexit
    rw [step, stop_of_idle hidle, hb]
    rfl
  have hbegins : (s.step k .stop).Pursues b.pid s.supervisor.policy [] s.attempts := by
    rw [hstop]
    exact ⟨rfl, by rw [Supervisor.pid?, hb]; rfl, _, rfl, .interrupting⟩
  exact hbegins.run (step_sound k hs .stop) hbs

/-- Only the latest request changes as long as no other is made. -/
lemma step_latest (s : Session σ) {a : Act} (ha : a ≠ .stop) :
    (s.step k a).attempts = s.attempts ∨
      ∃ t t' ts, s.attempts = t :: ts ∧ (s.step k a).attempts = t' :: ts := by
  obtain ⟨w, rfl⟩ | rfl | ⟨m, hm⟩ | ⟨r, hr⟩ := s.act_cases a
  · exact .inl (start_attempts s w)
  · exact absurd rfl ha
  · exact .inl (move_attempts k hm)
  · rw [step_reply k hr]
    obtain ⟨hsame, -⟩ | ⟨t, ts, b, hts, hb⟩ := s.hear_cases r
    · exact .inl (congrArg attempts hsame)
    · exact .inr ⟨t, _, ts, hts, by rw [hear_of_some hts hb]⟩

/-- The requests `ts` have been made and are over. -/
def Past (ts : List Attempt) (s : Session σ) : Prop :=
  s.attempts = ts ∧ s.isBusy = false ∨ ∃ t us, s.attempts = t :: us ∧ ts <:+ us

lemma Past.suffix (h : Past ts s) : ts <:+ s.attempts := by
  obtain ⟨rfl, -⟩ | ⟨t, us, hus, hts⟩ := h
  · exact List.suffix_refl _
  · exact hus ▸ hts.trans (List.suffix_cons t us)

lemma Past.step (h : Past ts s) (a : Act) : Past ts (s.step k a) := by
  by_cases ha : a = .stop
  · subst ha
    rcases hb : s.isBusy with _ | _
    · exact .inr ⟨_, _, congrArg attempts (stop_of_idle hb), h.suffix⟩
    · rw [Session.step, stop_of_busy hb]
      exact h
  · obtain hidle | ⟨t, us, hus, hts⟩ := h
    · have hsame := step_idle (k := k) hidle.2 ha
      exact .inl ⟨hsame.trans hidle.1, (isBusy_congr hsame).trans hidle.2⟩
    · obtain hsame | ⟨t', t'', us', hus', hnext⟩ := step_latest (k := k) s ha
      · exact .inr ⟨t, us, hsame.trans hus, hts⟩
      · obtain ⟨rfl, rfl⟩ := List.cons.inj (hus.symm.trans hus')
        exact .inr ⟨t'', us, hnext, hts⟩

/-- Requests that are over stay as they are. -/
lemma Past.run (h : Past ts s) (bs : List Act) : Past ts (s.run k bs) := by
  induction bs generalizing s with
  | nil => exact h
  | cons b bs ih => exact ih (h.step b)

/-! ### Signals -/

/-- The signals of a session, in their order. -/
def signals (s : Session σ) : List Effect := s.attempts.reverse.flatMap Attempt.signals

lemma signals_congr {s s' : Session σ} (h : s'.attempts = s.attempts) :
    s'.signals = s.signals := by
  rw [signals, signals, h]

lemma signals_cons {s : Session σ} {t : Attempt} {ts : List Attempt} (h : s.attempts = t :: ts) :
    s.signals = ts.reverse.flatMap Attempt.signals ++ t.signals := by
  rw [signals, h, List.reverse_cons, List.flatMap_append, List.flatMap_singleton]

/-- A request that begins interrupts an agent without an exit, and does nothing to any other. -/
lemma stop_signals (hidle : s.isBusy = false) :
    s.stop.signals = s.signals ∨ ∃ b, s.supervisor.attached = some b ∧ b.exit = none ∧
      s.stop.signals = s.signals ++ [.interrupt] := by
  have hstop := congrArg attempts (stop_of_idle hidle)
  rw [signals_cons hstop]
  rcases hb : s.supervisor.attached with _ | ⟨pid, _ | x, forwarder, waiter⟩
  · exact .inl (List.append_nil _)
  · exact .inr ⟨_, rfl, rfl, rfl⟩
  · exact .inl (List.append_nil _)

/-- A reply sends no signal but the kill, and only from the deadline of a request on. -/
lemma hear_signals (s : Session σ) (r : Stop.Reply) :
    (s.hear r).signals = s.signals ∨ ∃ b t ts deadline now, s.supervisor.attached = some b ∧
      s.attempts = t :: ts ∧ t.progress = .pending (.awaiting deadline) ∧
      r = .looked now none ∧ deadline ≤ now ∧ (s.hear r).signals = s.signals ++ [.kill] := by
  obtain ⟨hsame, -⟩ | ⟨t, ts, b, hts, hb⟩ := s.hear_cases r
  · exact .inl (congrArg signals hsame)
  · have hhear : (s.hear r).attempts = t.hear b.pid s.supervisor.policy r :: ts := by
      rw [hear_of_some hts hb]
    rw [signals_cons hts, signals_cons hhear]
    obtain hsig | ⟨deadline, now, hp, hr, hnow, hsig⟩ :=
      t.hear_signals b.pid s.supervisor.policy r
    · exact .inl (by rw [hsig])
    · exact .inr ⟨b, t, ts, deadline, now, hb, hts, hp, hr, hnow,
        by rw [hsig, List.append_assoc]⟩

/-- What sends signals: a request that begins, and one that looks for the exit from its deadline
on. -/
structure Signals (s : Session σ) (a : Act) (signal : Effect) : Prop where
  agent : ∃ b, s.supervisor.attached = some b ∧ b.exit = none
  cause : a = .stop ∧ s.isBusy = false ∧ signal = .interrupt ∨
    ∃ now deadline t ts, a = .look now ∧ deadline ≤ now ∧ s.attempts = t :: ts ∧
      t.progress = .pending (.awaiting deadline) ∧ signal = .kill

/-- **A signal is sent only to an agent whose exit is not recorded.** A request that begins sends
the interrupt, and one that looks for the exit from its deadline on the kill; no other act sends
anything. -/
theorem step_signals (s : Session σ) (a : Act) :
    (s.step k a).signals = s.signals ∨
      ∃ signal, s.Signals a signal ∧ (s.step k a).signals = s.signals ++ [signal] := by
  obtain ⟨w, rfl⟩ | rfl | ⟨m, hm⟩ | ⟨r, hr⟩ := s.act_cases a
  · exact .inl (signals_congr (start_attempts s w))
  · rcases hb : s.isBusy with _ | _
    · obtain hsame | ⟨b, hattached, hexit, hsig⟩ := stop_signals hb
      · exact .inl hsame
      · exact .inr ⟨.interrupt, ⟨⟨b, hattached, hexit⟩, .inl ⟨rfl, hb, rfl⟩⟩, hsig⟩
    · exact .inl (congrArg signals (stop_of_busy hb))
  · exact .inl (signals_congr (move_attempts k hm))
  · rw [step_reply k hr]
    obtain hsame | ⟨b, t, ts, deadline, now, hb, hts, hp, rfl, hnow, hsig⟩ := s.hear_signals r
    · exact .inl hsame
    · cases a with
      | look now' =>
        obtain ⟨rfl, hexit⟩ := Stop.Reply.looked.inj (Option.some.inj hr)
        rw [Supervisor.exit?, hb, Option.bind_some] at hexit
        exact .inr ⟨.kill,
          ⟨⟨b, hb, hexit⟩, .inr ⟨_, deadline, t, ts, rfl, hnow, hts, hp, rfl⟩⟩, hsig⟩
      | interrupted | killed => cases hr
      | _ => cases hr

/-- **Once the exit is recorded it stays so, and nothing is signalled any more.** -/
theorem run_signals (hs : s.Sound) {x : Exit} (hx : s.supervisor.exit? = some x)
    (as : List Act) :
    (s.run k as).supervisor.exit? = some x ∧ (s.run k as).signals = s.signals := by
  induction as generalizing s with
  | nil => exact ⟨hx, rfl⟩
  | cons a as ih =>
    have hnext := ih (step_sound k hs a) ((step_keeps k hs a).exit x hx)
    obtain hsame | ⟨signal, ⟨⟨b, hb, hnone⟩, -⟩, -⟩ := step_signals (k := k) s a
    · exact ⟨hnext.1, hnext.2.trans hsame⟩
    · rw [Supervisor.exit?, hb, Option.bind_some, hnone] at hx
      cases hx

/-! ### Counts -/

/-- The latest request's share of a count. -/
def latest (f : Attempt → Nat) (s : Session σ) : Nat := (s.attempts.head?.map f).getD 0

/-- Every kill is paid for by an interrupt that has succeeded, `n` of them so far, and these by the
interrupts sent, one for a request at most. What a request may still need is set aside for it. -/
structure Balanced (s : Session σ) (n : Nat) : Prop where
  kills : s.signals.count .kill + s.latest Attempt.mayKill ≤ n
  delivered : n + s.latest Attempt.mayDeliver ≤ s.signals.count .interrupt
  interrupts : s.signals.count .interrupt ≤ s.attempts.length

lemma Balanced.congr {n : Nat} (h : s.Balanced n) {s' : Session σ}
    (hsame : s'.attempts = s.attempts) : s'.Balanced n := by
  obtain ⟨hkills, hdelivered, hinterrupts⟩ := h
  rw [← signals_congr hsame, ← hsame] at hinterrupts
  rw [← signals_congr hsame] at hkills hdelivered
  refine ⟨?_, ?_, hinterrupts⟩
  · rwa [latest, hsame]
  · rwa [latest, hsame]

lemma latest_cons {f : Attempt → Nat} {t : Attempt} {ts : List Attempt}
    (h : s.attempts = t :: ts) : s.latest f = f t := by
  rw [latest, h]
  rfl

/-- Where no request is under way nothing is set aside. -/
lemma latest_of_idle (h : s.isBusy = false) :
    s.latest Attempt.mayKill = 0 ∧ s.latest Attempt.mayDeliver = 0 := by
  rcases hts : s.attempts with _ | ⟨⟨p | result, deeds⟩, ts⟩
  · rw [latest, latest, hts]
    exact ⟨rfl, rfl⟩
  · rw [isBusy_cons hts] at h
    cases h
  · rw [latest_cons hts, latest_cons hts]
    exact ⟨rfl, rfl⟩

lemma Balanced.stop {n : Nat} (h : s.Balanced n) (hidle : s.isBusy = false) :
    s.stop.Balanced n := by
  obtain ⟨hkills, hdelivered, hinterrupts⟩ := h
  rw [(latest_of_idle hidle).1] at hkills
  rw [(latest_of_idle hidle).2] at hdelivered
  have hstop := congrArg attempts (stop_of_idle hidle)
  have hsignals : s.stop.signals =
      s.signals ++ (Attempt.begin s.supervisor.attached).signals := signals_cons hstop
  obtain ⟨hkill, hmay, hdeliver, hone⟩ := Attempt.begin_balance s.supervisor.attached
  refine ⟨?_, ?_, ?_⟩
  · rw [latest_cons hstop, hsignals, List.count_append]
    omega
  · rw [latest_cons hstop, hsignals, List.count_append]
    omega
  · rw [hsignals, List.count_append, hstop, List.length_cons]
    omega

lemma Balanced.hear {n : Nat} (h : s.Balanced n) {t : Attempt} {b : Attached}
    (hts : s.attempts = t :: ts) (hb : s.supervisor.attached = some b) (r : Stop.Reply) :
    (s.hear r).Balanced (n + ((some r).filter t.takes).toList.countP Attempt.delivers) := by
  have hhear : (s.hear r).attempts = t.hear b.pid s.supervisor.policy r :: ts := by
    rw [hear_of_some hts hb]
  rcases htakes : t.takes r with _ | _
  · have hnone : (some r).filter t.takes = none := by simp [htakes]
    rw [hnone]
    refine h.congr ?_
    rw [hhear, Attempt.hear_of_not_takes _ _ htakes, hts]
  · have hsome : (some r).filter t.takes = some r :=
      Option.filter_eq_some_iff.mpr ⟨rfl, htakes⟩
    obtain ⟨hkills, hdelivered, hinterrupts⟩ := h
    obtain ⟨hkills', hdelivered', hinterrupts'⟩ :=
      Attempt.hear_balance b.pid s.supervisor.policy htakes
    rw [latest_cons hts, signals_cons hts, List.count_append] at hkills hdelivered
    rw [signals_cons hts, List.count_append, hts, List.length_cons] at hinterrupts
    rw [hsome, Option.toList_some]
    refine ⟨?_, ?_, ?_⟩
    · rw [latest_cons hhear, signals_cons hhear, List.count_append]
      omega
    · rw [latest_cons hhear, signals_cons hhear, List.count_append]
      omega
    · rw [signals_cons hhear, List.count_append, hhear, List.length_cons]
      omega

lemma Balanced.step {n : Nat} (h : s.Balanced n) (hs : s.Sound) (a : Act) :
    (s.step k a).Balanced (n + (s.given? a).toList.countP Attempt.delivers) := by
  obtain ⟨w, rfl⟩ | rfl | ⟨m, hm⟩ | ⟨r, hr⟩ := s.act_cases a
  · exact h.congr (start_attempts s w)
  · rcases hb : s.isBusy with _ | _
    · exact h.stop hb
    · rw [Session.step, stop_of_busy hb]
      exact h
  · rw [given_of_move hm]
    exact h.congr (move_attempts k hm)
  · rw [step_reply k hr]
    rcases hb : s.isBusy with _ | _
    · rw [given_of_idle hb]
      refine h.congr ?_
      have hidle : (s.step k a).attempts = s.attempts := step_idle hb fun hstop => by
        rw [hstop] at hr
        cases hr
      rwa [step_reply k hr] at hidle
    · obtain ⟨n, hn⟩ := hs.agent hb
      obtain ⟨b, hattached, -⟩ := Option.map_eq_some_iff.mp hn
      rcases hts : s.attempts with _ | ⟨t, ts⟩
      · rw [isBusy, hts] at hb
        cases hb
      · have hgiven : s.given? a = (some r).filter t.takes := by
          simp [given?, hr, hts]
        rw [hgiven]
        exact h.hear hts hattached r

lemma Balanced.run {n : Nat} (h : s.Balanced n) (hs : s.Sound) (as : List Act) :
    (s.run k as).Balanced (n + (s.replies k as).countP Attempt.delivers) := by
  induction as generalizing s n with
  | nil => exact h
  | cons a as ih =>
    have hrest := ih (h.step hs a) (step_sound k hs a)
    rw [Nat.add_assoc, ← List.countP_append] at hrest
    exact hrest

/-! ### The end of a request -/

/-- The latest request is over when its signals are answered and it looks for the exit late
enough. -/
lemma run_to_end (hs : s.Sound) (r : Except Fault Nat) (r' : Except Fault Unit) :
    ∃ deadline, ∀ now, deadline ≤ now →
      (s.run k [.interrupted r, .look now, .killed r']).isBusy = false := by
  rcases hb : s.isBusy with _ | _
  · refine ⟨0, fun now _ => ?_⟩
    rw [isBusy_congr (run_idle (k := k) hb (by simp)).1, hb]
  · obtain ⟨n, hn⟩ := hs.agent hb
    obtain ⟨b, hattached, -⟩ := Option.map_eq_some_iff.mp hn
    rcases hts : s.attempts with _ | ⟨t, ts⟩
    · rw [isBusy, hts] at hb
      cases hb
    · obtain ⟨deadline, hend⟩ := t.hear_to_end b.pid s.supervisor.policy r r'
      refine ⟨deadline, fun now hnow => ?_⟩
      have hover := hend now hnow s.supervisor.exit?
      simp only [run_cons, run_nil, Session.step, Session.hear, hts, hattached]
      exact hover

variable (k)

/-- **Stop requests signal as they should, however they meet the agent's exit.** A request that
finds no agent, or its exit recorded, succeeds at once and signals nothing; any other signals the
agent that it finds and keeps its promises, for as long as it lasts. A request is over when its
signals are answered and it looks for the exit late enough, and stays as it is. A signal is sent
only by a request that begins and by one that looks for the exit from its deadline on, to an
agent whose exit is not recorded. The exit is recorded for good, and no signal comes behind it.
Kills are at most as many as interrupts that succeeded, and interrupts at most as many as
requests. -/
theorem stop_requests_sound (agent : String) (arguments : List String) (policy : StopPolicy)
    (sink : σ) (as : List Act) :
    let s₀ := Session.new (.idle agent arguments policy sink)
    let s := s₀.run k as
    (s.isBusy = false → ∀ bs, .stop ∉ bs →
      let got := (s.step k .stop).replies k bs
      ∃ t, (s.run k (.stop :: bs)).attempts = t :: s.attempts ∧
        (s.supervisor.attached = none ∨ s.supervisor.exit? ≠ none →
          got = [] ∧ t.signals = [] ∧ t.progress = .done (.ok ())) ∧
        ∀ b, s.supervisor.attached = some b → b.exit = none → t.Lawful b.pid policy got) ∧
    (∀ r r', ∃ deadline, ∀ now, deadline ≤ now →
      (s.run k [.interrupted r, .look now, .killed r']).isBusy = false) ∧
    (s.isBusy = false → ∀ bs, s.attempts <:+ (s.run k bs).attempts) ∧
    (∀ a, (s.step k a).signals = s.signals ∨
      ∃ signal, s.Signals a signal ∧ (s.step k a).signals = s.signals ++ [signal]) ∧
    (∀ x, s.supervisor.exit? = some x → ∀ bs,
      (s.run k bs).supervisor.exit? = some x ∧ (s.run k bs).signals = s.signals) ∧
    s.signals.count .kill ≤ (s₀.replies k as).countP Attempt.delivers ∧
    (s₀.replies k as).countP Attempt.delivers ≤ s.signals.count .interrupt ∧
    s.signals.count .interrupt ≤ s.attempts.length := by
  intro s₀ s
  have hs₀ : s₀.Sound := new_sound agent arguments policy sink
  have hs : s.Sound := run_sound k hs₀ as
  have hpolicy : s.supervisor.policy = policy := run_policy hs₀ as
  have hfresh : s₀.Balanced 0 := ⟨Nat.le_refl 0, Nat.le_refl 0, Nat.le_refl 0⟩
  obtain ⟨hkills, hdelivered, hinterrupts⟩ := hfresh.run (k := k) hs₀ as
  rw [Nat.zero_add] at hkills hdelivered
  refine ⟨fun hidle bs hbs => ?_, run_to_end hs, fun hidle bs => ?_, step_signals s,
    fun x hx bs => run_signals hs hx bs, Nat.le_of_add_right_le hkills,
    Nat.le_of_add_right_le hdelivered, hinterrupts⟩
  · intro got
    by_cases halive : ∃ b, s.supervisor.attached = some b ∧ b.exit = none
    · obtain ⟨b, hb, hexit⟩ := halive
      obtain ⟨-, -, t, hattempts, hway⟩ := run_pursues (k := k) hs hidle hb hexit hbs
      refine ⟨t, hattempts, fun hnothing => ?_, fun b' hb' _ => ?_⟩
      · rw [Supervisor.exit?, hb, Option.bind_some, hexit] at hnothing
        simp at hnothing
      · obtain rfl : b = b' := Option.some.inj (hb.symm.trans hb')
        rw [hpolicy] at hway
        exact hway.lawful
    · have hmoot (b : Attached) (hb : s.supervisor.attached = some b) : b.exit ≠ none :=
        fun hexit => halive ⟨b, hb, hexit⟩
      obtain ⟨hattempts, hnone⟩ := run_moot (k := k) hidle hmoot hbs
      refine ⟨_, hattempts, fun _ => ⟨hnone, rfl, rfl⟩, fun b hb hexit => ?_⟩
      exact absurd hexit (hmoot b hb)
  · have hpast : Past s.attempts s := .inl ⟨rfl, hidle⟩
    exact (hpast.run (k := k) bs).suffix

/-- Surroundings in which agents are launched as `pid`, if their path is `launchable`. -/
def launching (launchable : Bool) (pid : Nat) : Surroundings where
  platform := .unix
  directory := .ok "/opt"
  launchable _ := launchable
  launch _ := .ok (pid, .ofReads [] true)

/-- An interrupt at the fifth nanosecond, a look within the ten seconds of the budget, one at their
end, and a kill that fails. -/
def outlasted : List Act :=
  [.interrupted (.ok 5), .look 6, .look 10000000005, .killed (.error (.os 1))]

/-- An agent that outlasts the budget and its kill, and one whose exit is recorded. -/
theorem stop_requests_sound_outlasted :
    let s₀ := Session.new (.idle "agent" [] .default (Memory.empty none))
    let s := s₀.run Memory.sink [.start (launching true 7)]
    let z := s₀.run Memory.sink [.start (launching true 7), .exit (.ok (.exited 1))]
    (s.isBusy = false ∧ .stop ∉ outlasted ∧
      ∃ t, (s.run Memory.sink (.stop :: outlasted)).attempts = [t] ∧
        t.signals = [.interrupt, .kill] ∧ t.progress = .done (.error (.kill 7 (.os 1)))) ∧
    z.isBusy = false ∧ .stop ∉ outlasted ∧
      ∃ t, (z.run Memory.sink (.stop :: outlasted)).attempts = [t] ∧
        t.signals = [] ∧ t.progress = .done (.ok ()) := by
  intro s₀ s z
  have hstop : .stop ∉ outlasted := by simp [outlasted]
  have hgot : (s.step Memory.sink .stop).replies Memory.sink outlasted =
      [.interrupted (.ok 5), .looked 6 none, .looked 10000000005 none, .killed (.error (.os 1))] :=
    rfl
  obtain ⟨hs, -⟩ := stop_requests_sound Memory.sink "agent" [] .default (Memory.empty none)
    [.start (launching true 7)]
  obtain ⟨hz, -⟩ := stop_requests_sound Memory.sink "agent" [] .default (Memory.empty none)
    [.start (launching true 7), .exit (.ok (.exited 1))]
  obtain ⟨t, ht, -, hlawful⟩ := hs rfl outlasted hstop
  obtain ⟨u, hu, hmoot, -⟩ := hz rfl outlasted hstop
  have h := hlawful _ rfl rfl
  rw [hgot] at h
  have hkill : .kill ∈ t.signals := h.kill.mpr ⟨5, [6], 10000000005, _, rfl, by decide, by decide⟩
  refine ⟨⟨rfl, hstop, t, ht, ?_, (h.killed (.error (.os 1)) (by simp)).2⟩, rfl, hstop, u, hu,
    (hmoot (.inr (by decide))).2⟩
  obtain hsignals | hsignals := h.signals
  · rw [hsignals] at hkill
    simp at hkill
  · exact hsignals

end Session

end Warden
