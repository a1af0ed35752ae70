import Mathlib.Data.List.Count
import Mathlib.Tactic.Common
import Warden.Session

/-!
One request to stop the agent.

A request gets replies, one after another, and takes those that its phase waits for. It has one way
only to go through its phases, so where it stands and what it has done can be read off the replies
that it has got (`Attempt.Way`), and so can what it owes to its caller and to the agent
(`Attempt.Way.lawful`).
-/

namespace Warden

open Agent Log Service

/-! ### One reply -/

namespace Service.Stop

/-- Whether a request in this phase waits for the reply. -/
def Phase.awaits : Phase → Reply → Bool
  | .interrupting, .interrupted _ | .awaiting _, .looked _ _ | .killing, .killed _ => true
  | _, _ => false

/-- What a request to stop the agent `pid` makes of the replies that it waits for. -/
inductive Turn (pid : Nat) (policy : StopPolicy) :
    Phase → Reply → Progress → List Effect → Prop where
  | interrupt (now : Nat) : Turn pid policy .interrupting (.interrupted (.ok now))
    (.pending (.awaiting (now + policy.timeout.nanos))) []
  | refuse (f : Fault) : Turn pid policy .interrupting (.interrupted (.error f))
    (.done (.error (.interrupt pid f))) []
  | await {deadline now : Nat} (hnow : now < deadline) :
    Turn pid policy (.awaiting deadline) (.looked now none)
      (.pending (.awaiting deadline)) [.sleep policy.poll]
  | heed (deadline now : Nat) (x : Exit) :
    Turn pid policy (.awaiting deadline) (.looked now (some x))
      (.done (.ok ())) [.tell (exited pid x)]
  | lose {deadline now : Nat} (hnow : deadline ≤ now) :
    Turn pid policy (.awaiting deadline) (.looked now none)
      (.pending .killing) [.tell (spent pid policy.timeout), .kill]
  | kill : Turn pid policy .killing (.killed (.ok ())) (.done (.ok ())) []
  | fail (f : Fault) : Turn pid policy .killing (.killed (.error f))
    (.done (.error (.kill pid f))) []

variable (pid : Nat) (policy : StopPolicy) {p : Phase} {r : Reply}

lemma step_of_awaits (h : p.awaits r = true) :
    Turn pid policy p r (step pid policy p r).1 (step pid policy p r).2 := by
  rcases p with _ | deadline | _
  · rcases r with (f | now) | _ | _
    · exact .refuse f
    · exact .interrupt now
    all_goals cases h
  · rcases r with _ | ⟨now, _ | x⟩ | _
    · cases h
    · rcases Nat.lt_or_ge now deadline with hnow | hnow
      · rw [step_early pid policy hnow]
        exact .await hnow
      · rw [step_late pid policy hnow]
        exact .lose hnow
    · exact .heed deadline now x
    · cases h
  · rcases r with _ | _ | (f | _)
    · cases h
    · cases h
    · exact .fail f
    · exact .kill

lemma step_of_not_awaits (h : p.awaits r = false) : step pid policy p r = (.pending p, []) := by
  rcases p with _ | deadline | _ <;> rcases r with _ | _ | _ <;> first | rfl | cases h

end Service.Stop

namespace Attempt

def isSignal : Effect → Bool
  | .interrupt | .kill => true
  | _ => false

/-- The signals of a request, in their order. -/
def signals (t : Attempt) : List Effect := t.deeds.filter isSignal

/-- The sleeps of a request, in their order. -/
def sleeps (t : Attempt) : List Span := Service.sleeps t.deeds

def takes (t : Attempt) (r : Stop.Reply) : Bool :=
  match t.progress with
  | .pending p => p.awaits r
  | .done _ => false

lemma hear_of_not_takes (pid : Nat) (policy : StopPolicy) {t : Attempt} {r : Stop.Reply}
    (h : t.takes r = false) : t.hear pid policy r = t := by
  obtain ⟨p | result, deeds⟩ := t
  · simp only [hear, Stop.step_of_not_awaits pid policy h, List.append_nil]
  · rfl

/-- A reply that is taken makes a request take one of its turns. -/
lemma hear_of_takes (pid : Nat) (policy : StopPolicy) {t : Attempt} {r : Stop.Reply}
    (h : t.takes r = true) : ∃ p q es, t.progress = .pending p ∧ Stop.Turn pid policy p r q es ∧
      t.hear pid policy r = ⟨q, t.deeds ++ es⟩ := by
  obtain ⟨p | result, deeds⟩ := t
  · exact ⟨p, _, _, rfl, Stop.step_of_awaits pid policy h, rfl⟩
  · cases h

/-- A reply sends no signal but the kill, and only from the deadline on. -/
lemma hear_signals (pid : Nat) (policy : StopPolicy) (t : Attempt) (r : Stop.Reply) :
    (t.hear pid policy r).signals = t.signals ∨ ∃ deadline now,
      t.progress = .pending (.awaiting deadline) ∧ r = .looked now none ∧ deadline ≤ now ∧
        (t.hear pid policy r).signals = t.signals ++ [.kill] := by
  rcases htakes : t.takes r with _ | _
  · exact .inl (by rw [hear_of_not_takes _ _ htakes])
  · obtain ⟨p, q, es, hp, hturn, hhear⟩ := hear_of_takes pid policy htakes
    rw [hhear, signals, List.filter_append]
    cases hturn with
    | interrupt | refuse | await | heed | kill | fail => exact .inl (List.append_nil _)
    | lose hnow => exact .inr ⟨_, _, hp, rfl, hnow, rfl⟩

/-! ### The ways of a request -/

/-- Replies of an agent that was interrupted at the time `began` and at the times `ts` looked for in
vain. -/
def lingering (began : Nat) (ts : List Nat) : List Stop.Reply :=
  .interrupted (.ok began) :: ts.map (Stop.Reply.looked · none)

/-- Replies of an agent that has not exited at the time `now` either. -/
def outlasting (began : Nat) (ts : List Nat) (now : Nat) : List Stop.Reply :=
  lingering began ts ++ [.looked now none]

/-- An interrupt and `n` sleeps. -/
def waited (policy : StopPolicy) (n : Nat) : List Effect :=
  .interrupt :: List.replicate n (.sleep policy.poll)

lemma lingering_snoc (began : Nat) (ts : List Nat) (now : Nat) :
    lingering began (ts ++ [now]) = lingering began ts ++ [.looked now none] := by
  rw [lingering, lingering, List.map_append, List.map_singleton, List.cons_append]

lemma waited_succ (policy : StopPolicy) (n : Nat) :
    waited policy (n + 1) = waited policy n ++ [.sleep policy.poll] := by
  rw [waited, waited, List.replicate_succ', List.cons_append]

@[simp] lemma mem_lingering {r : Stop.Reply} {began : Nat} {ts : List Nat} :
    r ∈ lingering began ts ↔ r = .interrupted (.ok began) ∨ ∃ t ∈ ts, r = .looked t none := by
  simp [lingering, eq_comm]

@[simp] lemma mem_outlasting {r : Stop.Reply} {began : Nat} {ts : List Nat} {now : Nat} :
    r ∈ outlasting began ts now ↔ r ∈ lingering began ts ∨ r = .looked now none := by
  simp [outlasting]

@[simp] lemma filter_waited (policy : StopPolicy) (n : Nat) :
    (waited policy n).filter isSignal = [.interrupt] := by
  simp [waited, isSignal, List.filter_cons]

@[simp] lemma sleeps_waited (policy : StopPolicy) (n : Nat) (es : List Effect) :
    Service.sleeps (waited policy n ++ es) = List.replicate n policy.poll ++ Service.sleeps es := by
  have hsleep : (Effect.sleep policy.poll).sleep? = some policy.poll := rfl
  rw [Service.sleeps, waited, List.filterMap_append, List.filterMap_cons_none rfl,
    List.filterMap_replicate_of_some hsleep]
  rfl

/-- The ways of a request that has interrupted the agent `pid`. What is looked at before the
deadline is followed by a sleep. -/
inductive Way (pid : Nat) (policy : StopPolicy) : List Stop.Reply → Attempt → Prop where
  | interrupting : Way pid policy [] ⟨.pending .interrupting, [.interrupt]⟩
  | refused (f : Fault) :
    Way pid policy [.interrupted (.error f)] ⟨.done (.error (.interrupt pid f)), [.interrupt]⟩
  | awaiting {began : Nat} {ts : List Nat} (hts : ∀ t ∈ ts, t < began + policy.timeout.nanos) :
    Way pid policy (lingering began ts)
      ⟨.pending (.awaiting (began + policy.timeout.nanos)), waited policy ts.length⟩
  | exited {began now : Nat} {ts : List Nat} {x : Exit}
    (hts : ∀ t ∈ ts, t < began + policy.timeout.nanos) :
    Way pid policy (lingering began ts ++ [.looked now (some x)])
      ⟨.done (.ok ()), waited policy ts.length ++ [.tell (Stop.exited pid x)]⟩
  | killing {began now : Nat} {ts : List Nat} (hts : ∀ t ∈ ts, t < began + policy.timeout.nanos)
    (hnow : began + policy.timeout.nanos ≤ now) :
    Way pid policy (outlasting began ts now)
      ⟨.pending .killing,
        waited policy ts.length ++ [.tell (Stop.spent pid policy.timeout), .kill]⟩
  | killed {began now : Nat} {ts : List Nat} (hts : ∀ t ∈ ts, t < began + policy.timeout.nanos)
    (hnow : began + policy.timeout.nanos ≤ now) :
    Way pid policy (outlasting began ts now ++ [.killed (.ok ())])
      ⟨.done (.ok ()), waited policy ts.length ++ [.tell (Stop.spent pid policy.timeout), .kill]⟩
  | spared {began now : Nat} {ts : List Nat} (hts : ∀ t ∈ ts, t < began + policy.timeout.nanos)
    (hnow : began + policy.timeout.nanos ≤ now) (f : Fault) :
    Way pid policy (outlasting began ts now ++ [.killed (.error f)])
      ⟨.done (.error (.kill pid f)),
        waited policy ts.length ++ [.tell (Stop.spent pid policy.timeout), .kill]⟩

variable {pid : Nat} {policy : StopPolicy} {got : List Stop.Reply} {t : Attempt}

/-- A request keeps to its way, whatever reply it takes. -/
lemma Way.hear (h : Way pid policy got t) {r : Stop.Reply} (hr : t.takes r = true) :
    Way pid policy (got ++ [r]) (t.hear pid policy r) := by
  obtain ⟨p, q, es, hp, hturn, hhear⟩ := hear_of_takes pid policy hr
  rw [hhear]
  cases h with
  | interrupting =>
    cases hp
    cases hturn with
    | interrupt began => exact @awaiting pid policy began [] (by simp)
    | refuse f => exact .refused f
  | @awaiting began ts hts =>
    cases hp
    cases hturn with
    | @await _ now hnow =>
      dsimp only
      rw [← lingering_snoc, ← waited_succ]
      have hlength : ts.length + 1 = (ts ++ [now]).length := by simp
      rw [hlength]
      refine .awaiting fun t ht => ?_
      rcases List.mem_append.mp ht with ht | ht
      · exact hts t ht
      · exact List.mem_singleton.mp ht ▸ hnow
    | heed => exact .exited hts
    | lose hnow => exact .killing hts hnow
  | killing hts hnow =>
    cases hp
    cases hturn with
    | kill => exact (List.append_nil _).symm ▸ .killed hts hnow
    | fail f => exact (List.append_nil _).symm ▸ .spared hts hnow f
  | refused | exited | killed | spared => cases hp

/-! ### What a request owes -/

/-- What a request that has interrupted the agent `pid` owes to its caller and to the agent, when it
has got the replies `got`. -/
structure Lawful (pid : Nat) (policy : StopPolicy) (got : List Stop.Reply) (t : Attempt) :
    Prop where
  /-- It interrupts once, and kills at most once, behind the interrupt. -/
  signals : t.signals = [.interrupt] ∨ t.signals = [.interrupt, .kill]
  /-- An interrupt that fails is the last signal, and its failure the result. -/
  refused : ∀ f, .interrupted (.error f) ∈ got →
    t.signals = [.interrupt] ∧ t.progress = .done (.error (.interrupt pid f))
  /-- An exit that it finds ends it, without a kill. -/
  exited : ∀ now x, .looked now (some x) ∈ got →
    t.signals = [.interrupt] ∧ t.progress = .done (.ok ())
  /-- It kills just where its interrupt has succeeded, no look before the deadline has found an
  exit, and the first one from the deadline on neither. -/
  kill : .kill ∈ t.signals ↔ ∃ (began : Nat) (ts : List Nat) (now : Nat) (rest : List Stop.Reply),
    got = .interrupted (.ok began) :: ts.map (Stop.Reply.looked · none) ++
        .looked now none :: rest ∧
      (∀ t ∈ ts, t < began + policy.timeout.nanos) ∧ began + policy.timeout.nanos ≤ now
  /-- Only a kill is answered as one, and the answer is the result. -/
  killed : ∀ r, .killed r ∈ got →
    .kill ∈ t.signals ∧ t.progress = .done (r.mapError (StopError.kill pid))
  /-- Its result is the failure of the signal that failed, if one did. -/
  result : ∀ r, t.progress = .done r → ∀ e, r = .error e ↔ ∃ f,
    (e = .interrupt pid f ∧ .interrupted (.error f) ∈ got) ∨
      (e = .kill pid f ∧ .killed (.error f) ∈ got)

lemma Way.signals (h : Way pid policy got t) :
    t.signals = [.interrupt] ∨ t.signals = [.interrupt, .kill] := by
  cases h with
  | interrupting | refused => exact .inl rfl
  | awaiting => exact .inl (filter_waited ..)
  | exited => exact .inl (by simp [Attempt.signals, isSignal])
  | killing | killed | spared => exact .inr (by simp [Attempt.signals, isSignal])

/-- An agent that was looked for in vain only before the deadline has not outlasted it. -/
lemma not_outlasted {n began : Nat} {ts : List Nat} (hts : ∀ t ∈ ts, t < began + n)
    {rs : List Stop.Reply} (hrs : ∀ now, .looked now none ∉ rs)
    (hbegan : ∀ b, .interrupted (.ok b) ∉ rs) :
    ¬∃ began' ts' now rest,
      lingering began ts ++ rs = lingering began' ts' ++ .looked now none :: rest ∧
        (∀ t ∈ ts', t < began' + n) ∧ began' + n ≤ now := by
  rintro ⟨began', ts', now, rest, heq, -, hnow⟩
  obtain rfl : began = began' := by
    have hmem : Stop.Reply.interrupted (.ok began') ∈ lingering began ts ++ rs := by
      rw [heq]
      simp
    simpa [hbegan, eq_comm] using hmem
  have hmem : Stop.Reply.looked now none ∈ lingering began ts ++ rs := by
    rw [heq]
    simp
  have hlate : now ∈ ts := by simpa [hrs] using hmem
  have hearly := hts now hlate
  omega

/-- A kill has been sent just behind a look from the deadline on. -/
lemma Way.kill_iff (h : Way pid policy got t) : .kill ∈ t.signals ↔ ∃ began ts now rest,
    got = lingering began ts ++ .looked now none :: rest ∧
      (∀ t ∈ ts, t < began + policy.timeout.nanos) ∧ began + policy.timeout.nanos ≤ now := by
  cases h with
  | interrupting =>
    refine iff_of_false (by simp [Attempt.signals, isSignal]) ?_
    rintro ⟨began, ts, now, rest, heq, -⟩
    cases heq
  | refused f =>
    refine iff_of_false (by simp [Attempt.signals, isSignal]) ?_
    rintro ⟨began, ts, now, rest, heq, -⟩
    cases heq
  | awaiting hts =>
    refine iff_of_false (by simp [Attempt.signals]) ?_
    rw [← List.append_nil (lingering _ _)]
    exact not_outlasted hts (by simp) (by simp)
  | exited hts =>
    exact iff_of_false (by simp [Attempt.signals, isSignal])
      (not_outlasted hts (by simp) (by simp))
  | killing hts hnow =>
    exact iff_of_true (by simp [Attempt.signals, isSignal]) ⟨_, _, _, [], rfl, hts, hnow⟩
  | killed hts hnow =>
    refine iff_of_true (by simp [Attempt.signals, isSignal])
      ⟨_, _, _, [.killed (.ok ())], ?_, hts, hnow⟩
    rw [outlasting, List.append_assoc, List.singleton_append]
  | spared hts hnow f =>
    refine iff_of_true (by simp [Attempt.signals, isSignal])
      ⟨_, _, _, [.killed (.error f)], ?_, hts, hnow⟩
    rw [outlasting, List.append_assoc, List.singleton_append]

/-- **A request that keeps to its way owes nothing.** -/
theorem Way.lawful (h : Way pid policy got t) : t.Lawful pid policy got where
  signals := h.signals
  refused f hf := by
    cases h with
    | refused g =>
      obtain rfl : f = g := by simpa using hf
      exact ⟨rfl, rfl⟩
    | _ => simp at hf
  exited now x hx := by
    cases h with
    | exited => exact ⟨by simp [Attempt.signals, isSignal], rfl⟩
    | _ => simp at hx
  kill := h.kill_iff
  killed r hr := by
    cases h with
    | killed | spared =>
      obtain rfl := by simpa using hr
      exact ⟨by simp [Attempt.signals, isSignal], rfl⟩
    | _ => simp at hr
  result r hr e := by
    cases h with
    | refused f | spared _ _ f =>
      cases hr
      simp [eq_comm]
    | exited | killed =>
      cases hr
      simp
    | _ => cases hr

/-! ### What a request may still need -/

/-- A request that waits for the exit may kill yet. -/
def mayKill (t : Attempt) : Nat :=
  match t.progress with
  | .pending (.awaiting _) => 1
  | _ => 0

/-- A request that waits for its interrupt may hear of its success yet. -/
def mayDeliver (t : Attempt) : Nat :=
  match t.progress with
  | .pending .interrupting => 1
  | _ => 0

/-- An interrupt that has succeeded. -/
def delivers : Stop.Reply → Bool
  | .interrupted (.ok _) => true
  | _ => false

/-- A request that begins has not killed, and waits for the success of the one interrupt that it may
have sent. -/
lemma begin_balance (agent : Option Attached) :
    let t := begin agent
    t.signals.count .kill = 0 ∧ t.mayKill = 0 ∧ t.mayDeliver = t.signals.count .interrupt ∧
      t.signals.count .interrupt ≤ 1 := by
  rcases agent with _ | ⟨pid, _ | x, forwarder, waiter⟩
  · exact ⟨rfl, rfl, rfl, Nat.zero_le 1⟩
  · exact ⟨rfl, rfl, rfl, Nat.le_refl 1⟩
  · exact ⟨rfl, rfl, rfl, Nat.zero_le 1⟩

/-- A reply that is taken lets a request kill only if it may, or if it tells of an interrupt that
has succeeded, and of such a one it tells only once. -/
lemma hear_balance (pid : Nat) (policy : StopPolicy) {t : Attempt} {r : Stop.Reply}
    (h : t.takes r = true) :
    let t' := t.hear pid policy r
    t'.signals.count .kill + t'.mayKill ≤
        t.signals.count .kill + t.mayKill + [r].countP delivers ∧
      [r].countP delivers + t'.mayDeliver ≤ t.mayDeliver ∧
      t'.signals.count .interrupt = t.signals.count .interrupt := by
  intro t'
  obtain ⟨p, q, es, hp, hturn, hhear⟩ := hear_of_takes pid policy h
  have ht' : t' = ⟨q, t.deeds ++ es⟩ := hhear
  rw [ht']
  cases hturn <;> simp [signals, isSignal, mayKill, mayDeliver, delivers, hp, List.filter_cons]

/-! ### The end of a request -/

/-- A request is over when its signals are answered and it looks for the exit late enough. -/
lemma hear_to_end (pid : Nat) (policy : StopPolicy) (t : Attempt) (r : Except Fault Nat)
    (r' : Except Fault Unit) : ∃ deadline, ∀ now, deadline ≤ now → ∀ x,
      (((t.hear pid policy (.interrupted r)).hear pid policy (.looked now x)).hear pid policy
        (.killed r')).isPending = false := by
  have hwaiting (deadline : Nat) (deeds : List Effect) : ∀ now, deadline ≤ now → ∀ x,
      (((⟨.pending (.awaiting deadline), deeds⟩ : Attempt).hear pid policy (.looked now x)).hear
        pid policy (.killed r')).isPending = false := by
    intro now hnow x
    rcases x with _ | x
    · simp only [hear, Stop.step_late pid policy hnow]
      rcases r' with f | _ <;> rfl
    · rfl
  obtain ⟨progress, deeds⟩ := t
  rcases progress with (_ | deadline | _) | result
  · rcases r with f | began
    · exact ⟨0, fun _ _ _ => rfl⟩
    · exact ⟨began + policy.timeout.nanos, hwaiting _ _⟩
  · exact ⟨deadline, hwaiting deadline _⟩
  · exact ⟨0, fun _ _ x => by rcases x with _ | x <;> rcases r' with f | _ <;> rfl⟩
  · exact ⟨0, fun _ _ _ => rfl⟩

end Attempt

end Warden
