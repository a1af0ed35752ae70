import Warden.Proofs.Service.Accounts
import Warden.Proofs.Service.Inbox
import Warden.Proofs.Supervisor

/-!
The news of the exit.

The waiter records the exit, waits for the forwarder, for a while, and then announces the exit. An
act leaves the agent as it is or is one of its moves (`Run.step_touches`), and so the recorded exit,
the waiter and the news in the inbox belong together in every state of a run (`Run.run_tells`). A
forwarder that is over leaves the log to the loop (`Run.run_finished`), so what it has relayed
stands before anything that the loop writes about the exit.
-/

namespace Warden.Diagnostics.Forwarder

/-! ### A forwarder that is over -/

variable {f : Forwarder} (h : f.isReading = false)
include h

lemma move_of_over (m : Attached.Move) : f.move m = f := by
  cases f with
  | reading r => cases h
  | ended | crashed => cases m <;> rfl

lemma relayed_of_over (m : Attached.Move) : f.relayed m = [] := by
  cases f with
  | reading r => cases h
  | ended | crashed => cases m <;> rfl

end Warden.Diagnostics.Forwarder

namespace Warden.Service

open Agent Log Diagnostics

variable {σ : Type}

/-! ### The waiter -/

/-- What an act makes of the agent `b`, and what is announced by it. -/
inductive Touches (b : Attached) (a : Act) : Attached → Option (Except Fault Exit) → Prop where
  | still : Touches b a b none
  | move {m : Attached.Move} {c : Attached} {told : Option (Except Fault Exit)}
    (ha : a.move? = some m) (h : b.Moves m c told) : Touches b a c told

lemma Touches.forwarder_of_over {b c : Attached} {a : Act} {told : Option (Except Fault Exit)}
    (h : Touches b a c told) (hend : b.forwarder.isReading = false) :
    c.forwarder = b.forwarder := by
  cases h with
  | still => rfl
  | move _ hmoves => rw [hmoves.forwarder, Forwarder.move_of_over hend]

/-- The news that has been sent when the waiter of `b` is where it is; `ended` says whether the loop
is over. -/
def Tells (b : Attached) (ended : Bool) (news : List (Except Fault Exit)) : Prop :=
  match b.waiter with
  | .waiting | .lost => b.exit = none ∧ news = []
  | .draining result => b.exit = some (Supervisor.recorded result) ∧ news = []
  | .announced => ∃ result, b.exit = some (Supervisor.recorded result) ∧
      (news = [result] ∨ ended = true ∧ news = [])

lemma Tells.congr {b c : Attached} {ended ended' : Bool} {news : List (Except Fault Exit)}
    (h : Tells b ended news) (hx : c.exit = b.exit) (hw : c.waiter = b.waiter)
    (hover : ended = true → ended' = true) : Tells c ended' news := by
  unfold Tells at h ⊢
  rw [hx, hw]
  split
  · next hb => simpa only [hb] using h
  · next hb => simpa only [hb] using h
  · next hb => simpa only [hb] using h
  · next hb =>
    simp only [hb] at h
    obtain ⟨result, hexit, hnews | ⟨hgone, hnews⟩⟩ := h
    · exact ⟨result, hexit, .inl hnews⟩
    · exact ⟨result, hexit, .inr ⟨hover hgone, hnews⟩⟩

lemma Tells.length_le {b : Attached} {ended : Bool} {news : List (Except Fault Exit)}
    (h : Tells b ended news) : news.length ≤ 1 := by
  unfold Tells at h
  split at h
  · simp [h.2]
  · simp [h.2]
  · simp [h.2]
  · obtain ⟨result, -, rfl | ⟨-, rfl⟩⟩ := h <;> simp

lemma Tells.news_of_exit {b : Attached} {ended : Bool} {news : List (Except Fault Exit)}
    (h : Tells b ended news) (hx : b.exit = none) : news = [] := by
  unfold Tells at h
  split at h
  · exact h.2
  · exact h.2
  · exact h.2
  · obtain ⟨result, hexit, -⟩ := h
    cases hx.symm.trans hexit

lemma Tells.touch {b c : Attached} {ended ended' : Bool} {a : Act}
    {news : List (Except Fault Exit)} {told : Option (Except Fault Exit)}
    (h : Tells b ended news) (ht : Touches b a c told) (hover : ended = true → ended' = true) :
    Tells c ended' (news ++ (if ended then none else told).toList) := by
  cases ht with
  | still => simpa using h.congr rfl rfl hover
  | move _ hmoves =>
    cases hmoves.shift with
    | stay hx hw => simpa using h.congr hx hw hover
    | learn hb hx hw =>
      simp only [Tells, hb] at h
      simp [Tells, hw, hx, h.2]
    | die hb hx hw =>
      simp only [Tells, hb] at h
      simp [Tells, hw, hx, h.1, h.2]
    | @tell _ result hb hx hw =>
      simp only [Tells, hb] at h
      obtain ⟨hexit, rfl⟩ := h
      simp only [Tells, hw, hx]
      refine ⟨result, hexit, ?_⟩
      rcases ended with _ | _
      · exact .inl rfl
      · exact .inr ⟨hover rfl, rfl⟩

namespace Run

variable (k : Sink σ)

/-- Only a move of the agent announces anything. -/
lemma sent_move {r : Run σ} {a : Act} {m : Attached.Move} (ha : a.move? = some m) :
    (r.sent? a).bind Event.news? = if r.isOver then none else (r.supervisor.move k m).2 := by
  have hannounce (late : Bool) :
      (if r.isOver then none
        else (r.supervisor.announce late).2.map Event.agentGone).bind Event.news? =
      if r.isOver then none else (r.supervisor.announce late).2 := by
    rcases r.isOver with _ | _
    · rcases (r.supervisor.announce late).2 with _ | result <;> rfl
    · rfl
  cases a with
  | announce | announceLate =>
    obtain rfl := Option.some.inj ha
    exact hannounce _
  | deliver | close | relay | exit | lose =>
    obtain rfl := Option.some.inj ha
    simp only [sent?, Supervisor.move, ite_self]
    rfl
  | _ => cases ha

/-- What is no move of the agent leaves it as it is, and announces nothing. -/
lemma step_still {r : Run σ} {a : Act} (ha : a.move? = none) :
    (step k r a).supervisor.attached = r.supervisor.attached ∧
      (r.sent? a).bind Event.news? = none := by
  have hnone (hsent : r.sent? a = if r.isOver then none else none) :
      (r.sent? a).bind Event.news? = none := by
    rw [hsent, ite_self]
    rfl
  cases a with
  | request q =>
    refine ⟨?_, ?_⟩
    · simp only [step]
      split
      · rw [(post_eq r _).1]
      · rfl
    · simp only [sent?]
      split
      · rfl
      · split <;> rfl
  | hangUp | deafen | look | interrupted | killed => exact ⟨rfl, hnone rfl⟩
  | receive =>
    refine ⟨?_, hnone rfl⟩
    rw [step]
    obtain ⟨e, es, -, -, -, h⟩ | ⟨-, -, -, -, h⟩ | ⟨-, -, h⟩ := r.receive_cases k
    · rw [h]
      rfl
    · rw [h]
      rfl
    · rw [h]
  | _ => cases ha

/-- The agent of a run goes its way, whatever act comes. -/
lemma step_touches {r : Run σ} {b : Attached} (hb : r.supervisor.attached = some b) (a : Act) :
    ∃ c told, (step k r a).supervisor.attached = some c ∧ Touches b a c told ∧
      (r.sent? a).bind Event.news? = if r.isOver then none else told := by
  rcases ha : a.move? with _ | m
  · obtain ⟨hsame, hsent⟩ := step_still k (r := r) ha
    refine ⟨b, none, hsame.trans hb, .still, ?_⟩
    rw [hsent, ite_self]
  · obtain ⟨c, hmoves, hmove⟩ := Supervisor.move_of_some k hb m
    refine ⟨c, _, ?_, .move ha hmoves, sent_move k ha⟩
    rw [(step_move k ha).1, hmove]

/-- The recorded exit, the waiter and the news in the inbox belong together. -/
lemma run_tells {r : Run σ} {b : Attached} {news : List (Except Fault Exit)}
    (hb : r.supervisor.attached = some b) (h : Tells b r.isOver news) (as : List Act) :
    ∃ c, (run k r as).supervisor.attached = some c ∧
      Tells c (run k r as).isOver (news ++ (r.sent k as).filterMap Event.news?) := by
  induction as generalizing r b news with
  | nil => exact ⟨b, hb, by simpa [sent] using h⟩
  | cons a as ih =>
    obtain ⟨c, told, hc, htouches, hsent⟩ := step_touches k hb a
    have htells := h.touch htouches fun hover => isOver_step k hover a
    obtain ⟨d, hd, hlast⟩ := ih hc htells
    refine ⟨d, hd, ?_⟩
    rw [run_cons, sent, List.filterMap_append]
    rw [← hsent, List.append_assoc] at hlast
    rcases he : r.sent? a with _ | e
    · simpa [he] using hlast
    · rcases hn : e.news? with _ | result <;> simpa [he, hn] using hlast

/-! ### The recorded exit -/

/-- The exit is recorded where it becomes known, if none is recorded yet, and stays otherwise. -/
lemma step_exit {r : Run σ} {b : Attached} {news : List (Except Fault Exit)}
    (hb : r.supervisor.attached = some b) (h : Tells b r.isOver news) (a : Act) :
    (step k r a).supervisor.exit? = r.supervisor.exit? ∨
      ∃ result, a = .exit result ∧ r.supervisor.exit? = none ∧
        (step k r a).supervisor.exit? = some (Supervisor.recorded result) := by
  obtain ⟨c, told, hc, htouches, -⟩ := step_touches k hb a
  have hbefore : r.supervisor.exit? = b.exit := by rw [Supervisor.exit?, hb, Option.bind_some]
  have hbehind : (step k r a).supervisor.exit? = c.exit := by
    rw [Supervisor.exit?, hc, Option.bind_some]
  rw [hbefore, hbehind]
  cases htouches with
  | still => exact .inl rfl
  | move ha hmoves =>
    cases hmoves.shift with
    | stay hx | die _ hx | tell _ hx => exact .inl hx
    | @learn result hw hx =>
      simp only [Tells, hw] at h
      exact .inr ⟨result, Act.eq_ofMove ha, h.1, hx⟩

lemma run_exit {r : Run σ} {b : Attached} {news : List (Except Fault Exit)}
    (hb : r.supervisor.attached = some b) (h : Tells b r.isOver news) {x : Exit}
    (hx : r.supervisor.exit? = some x) (as : List Act) :
    (run k r as).supervisor.exit? = some x := by
  induction as generalizing r b news with
  | nil => exact hx
  | cons a as ih =>
    obtain ⟨c, told, hc, htouches, -⟩ := step_touches k hb a
    have htells := h.touch htouches fun hover => isOver_step k hover a
    obtain hsame | ⟨result, -, hnone, -⟩ := step_exit k hb h a
    · exact ih hc htells (hsame.trans hx)
    · cases hnone.symm.trans hx

/-- A recorded exit has been recorded by one of the acts. -/
lemma exists_exit {r : Run σ} {b : Attached} {news : List (Except Fault Exit)}
    (hb : r.supervisor.attached = some b) (h : Tells b r.isOver news)
    (hnone : r.supervisor.exit? = none) {as : List Act} {x : Exit}
    (hx : (run k r as).supervisor.exit? = some x) :
    ∃ pre result post, as = pre ++ .exit result :: post ∧ x = Supervisor.recorded result ∧
      (run k r pre).supervisor.exit? = none ∧
      (step k (run k r pre) (.exit result)).supervisor.exit? = some x := by
  induction as generalizing r b news with
  | nil => cases hnone.symm.trans hx
  | cons a as ih =>
    obtain ⟨c, told, hc, htouches, -⟩ := step_touches k hb a
    have htells := h.touch htouches fun hover => isOver_step k hover a
    obtain hsame | ⟨result, rfl, -, hrecorded⟩ := step_exit k hb h a
    · obtain ⟨pre, result, post, rfl, hresult, hbefore, hbehind⟩ :=
        ih hc htells (hsame.trans hnone) hx
      exact ⟨a :: pre, result, post, rfl, hresult, hbefore, hbehind⟩
    · have hkeep := run_exit k hc htells hrecorded as
      obtain rfl : x = Supervisor.recorded result := Option.some.inj (hx.symm.trans hkeep)
      exact ⟨[], result, as, rfl, rfl, hnone, hrecorded⟩

/-! ### The news -/

lemma sent_news {r : Run σ} {a : Act} {result : Except Fault Exit}
    (h : r.sent? a = some (.agentGone result)) : r.isOver = false := by
  unfold sent? at h
  rcases hover : r.isOver with _ | _
  · rfl
  · rw [hover] at h
    cases h

/-- A loop that goes on has not taken the news. -/
lemma news_left {k : Sink σ} {r : Run σ} {as : List Act} {result : Except Fault Exit}
    (hover : (r.run k as).isOver = false) (h : result ∈ (r.sent k as).filterMap Event.news?) :
    .agentGone result ∈ (r.run k as).inbox := by
  obtain ⟨e, he, hresult⟩ := List.mem_filterMap.mp h
  obtain rfl : e = .agentGone result := by
    cases e with
    | request q => cases hresult
    | agentGone result' =>
      obtain rfl := Option.some.inj hresult
      rfl
  have hsent : .agentGone result ∈ r.inbox ++ r.sent k as := List.mem_append_right _ he
  rw [← run_inbox] at hsent
  rcases List.mem_append.mp hsent with htaken | hleft
  · obtain ⟨i, hi, hevent⟩ := List.mem_filterMap.mp htaken
    rcases i with ⟨e, x⟩ | _ | _
    · obtain rfl := Option.some.inj hevent
      rw [isOver_of_mem k hi rfl] at hover
      cases hover
    · cases hevent
    · cases hevent
  · exact hleft

/-- A waiter that does not die is never lost. -/
lemma run_not_lost {r : Run σ} {b : Attached} (hb : r.supervisor.attached = some b)
    (hw : b.waiter ≠ .lost) {as : List Act} (hno : .lose ∉ as) :
    ∃ c, (run k r as).supervisor.attached = some c ∧ c.waiter ≠ .lost := by
  induction as generalizing r b with
  | nil => exact ⟨b, hb, hw⟩
  | cons a as ih =>
    rw [List.mem_cons, not_or] at hno
    obtain ⟨c, told, hc, htouches, -⟩ := step_touches k hb a
    refine ih hc ?_ hno.2
    cases htouches with
    | still => exact hw
    | move ha hmoves =>
      cases hmoves.shift with
      | stay _ hsame => rwa [hsame]
      | learn _ _ hw' | tell _ _ hw' =>
        rw [hw']
        simp
      | die => exact absurd (Act.eq_ofMove ha).symm hno.1

/-! ### The log behind the forwarder -/

lemma run_over {r : Run σ} {b : Attached} (hb : r.supervisor.attached = some b)
    (hend : b.forwarder.isReading = false) (as : List Act) :
    ∃ c, (run k r as).supervisor.attached = some c ∧ c.forwarder = b.forwarder := by
  induction as generalizing r b with
  | nil => exact ⟨b, hb, rfl⟩
  | cons a as ih =>
    obtain ⟨c, told, hc, htouches, -⟩ := step_touches k hb a
    have hf := htouches.forwarder_of_over hend
    obtain ⟨d, hd, hlast⟩ := ih hc (hf.symm ▸ hend)
    exact ⟨d, hd, hlast.trans hf⟩

lemma relayOne_of_over {s : Supervisor σ} {b : Attached} (hb : s.attached = some b)
    (hend : b.forwarder.isReading = false) : s.relayOne k = s := by
  obtain ⟨hsame, -⟩ | ⟨b', hb', hrelay⟩ := s.relayOne_cases k
  · exact hsame
  · obtain rfl : b = b' := Option.some.inj (hb.symm.trans hb')
    have hturn : b.forwarder.turn.2 = b.forwarder := Forwarder.move_of_over hend .relay
    have hnone : b.forwarder.turn.1.toList.map Item.entry = [] :=
      Forwarder.relayed_of_over hend .relay
    rw [hrelay, hturn, hnone, ← hb]
    rfl

variable {k} {view : σ → List Entry} {ok : σ → Prop}

/-- A forwarder that is over leaves the log to the loop. -/
lemma step_finished (hk : k.Lossless view ok) {r : Run σ} (hok : ok r.supervisor.sink)
    {f : Forwarder} (hf : r.supervisor.forwarder? = some f) (hend : f.isReading = false)
    (a : Act) : ok (step k r a).supervisor.sink ∧ ∃ es, r.Adds view (step k r a) es := by
  rcases ha : a.move? with _ | m
  · exact still_adds hk hok ha
  · obtain ⟨hok', hview, hf'⟩ := move_view hk hok hf ha
    rw [Forwarder.relayed_of_over hend] at hview
    rw [Forwarder.move_of_over hend] at hf'
    refine ⟨hok', [], hview, ?_, fun e he => absurd he List.not_mem_nil, hf'.trans hf.symm⟩
    rw [(step_move k ha).2, List.append_nil]

lemma run_finished (hk : k.Lossless view ok) {r : Run σ} (hok : ok r.supervisor.sink)
    {f : Forwarder} (hf : r.supervisor.forwarder? = some f) (hend : f.isReading = false)
    (as : List Act) : ∃ es, r.Adds view (run k r as) es := by
  induction as generalizing r with
  | nil => exact ⟨[], .of_eq rfl rfl rfl⟩
  | cons a as ih =>
    obtain ⟨hok', es, hadds⟩ := step_finished hk hok hf hend a
    obtain ⟨fs, hrest⟩ := ih hok' (hadds.forwarder.trans hf)
    exact ⟨es ++ fs, hadds.trans hrest⟩

end Run

namespace Loop

lemma Input.farewell_of_outcome {i : Input} (h : i.outcome? = none) (stopping : Bool) :
    i.farewell stopping = [] := by
  rcases i with ⟨q | result, x⟩ | _ | r
  · rfl
  · cases h
  · rfl
  · rfl

/-- Nothing is recorded about the end while the loop goes on. -/
lemma Turns.parting_eq_nil {l l' : Loop} {is : List Input} {es : List Effect}
    (h : l.Turns is (.serving l') es) (stopping : Bool) : parting stopping is = [] := by
  have hlast : none = is.getLast?.bind Input.outcome? := h.outcome
  unfold parting
  rcases hi : is.getLast? with _ | i
  · rfl
  · rw [hi] at hlast
    exact i.farewell_of_outcome hlast.symm _

end Loop

/-- What the loop writes behind a moment at which it is not over. -/
lemma Run.entries_behind {k : Sink σ} {s : Supervisor σ} {w : Surroundings} {pid : Nat}
    (hpid : (s.start w).result = .ok pid) {pre bs : List Act}
    (hover : ((Run.start k s w).1.run k pre).isOver = false) {es : List Entry}
    (hes : entries (((Run.start k s w).1.run k pre).run k bs).trace =
      entries ((Run.start k s w).1.run k pre).trace ++ es) :
    es = ((((Run.start k s w).1.run k pre).inputs k bs).filterMap
        (Loop.Input.stopError? pid)).map Loop.complaint ++
      Loop.parting false ((Run.start k s w).1.inputs k (pre ++ bs)) := by
  have hparting : Loop.parting false ((Run.start k s w).1.inputs k pre) = [] := by
    obtain ⟨fs, hturns, -⟩ := turns_of_started k hpid pre
    rcases hc : ((Run.start k s w).1.run k pre).course with l | o
    · rw [hc] at hturns
      exact hturns.parting_eq_nil false
    · rw [isOver_eq, hc] at hover
      cases hover
  rw [← run_append, entries_of_started k hpid, entries_of_started k hpid, hparting,
    List.append_nil, inputs_append, List.filterMap_append, List.map_append,
    List.append_assoc] at hes
  rw [inputs_append]
  exact (List.append_cancel_left hes).symm

/-! ### A run from its start -/

namespace Run

variable {k : Sink σ} {s : Supervisor σ} {w : Surroundings} {pid : Nat}
  (hpid : (s.start w).result = .ok pid)
include hpid

lemma start_waits : ∃ b, (start k s w).1.supervisor.attached = some b ∧ b.waiter = .waiting ∧
    b.exit = none := by
  obtain ⟨reader, hattach⟩ := Supervisor.attach_of_start hpid
  exact ⟨_, congrArg Supervisor.attached hattach, rfl, rfl⟩

lemma started_tells (as : List Act) :
    ∃ c, ((start k s w).1.run k as).supervisor.attached = some c ∧
      Tells c ((start k s w).1.run k as).isOver
        (((start k s w).1.sent k as).filterMap Event.news?) := by
  obtain ⟨b, hb, hw, hx⟩ := start_waits (k := k) hpid
  have h : Tells b (start k s w).1.isOver [] := by
    unfold Tells
    rw [hw]
    exact ⟨hx, rfl⟩
  exact run_tells k hb h as

/-- Where the news is sent it is the recorded exit that is announced. -/
lemma announced_exit {as : List Act} {a : Act} {result : Except Fault Exit}
    (h : ((start k s w).1.run k as).sent? a = some (.agentGone result)) :
    ∃ b, ((start k s w).1.run k as).supervisor.attached = some b ∧
      b.exit = some (Supervisor.recorded result) ∧
      (a = .announce → b.forwarder.isReading = false) := by
  obtain ⟨b, hb, htells⟩ := started_tells (k := k) hpid as
  obtain ⟨c, told, -, htouches, hsent⟩ := step_touches k hb a
  rw [h, sent_news h] at hsent
  obtain rfl : some result = told := hsent
  cases htouches with
  | move ha hmoves =>
    cases hmoves.shift with
    | tell hw _ _ hend =>
      simp only [Tells, hw] at htells
      refine ⟨b, hb, htells.1, fun hannounce => hend ?_⟩
      rw [hannounce] at ha
      injection Option.some.inj ha with hlate
      exact hlate.symm

/-- Once nobody can send any more, the news lies in the inbox. -/
lemma news_of_disconnected {as : List Act} (hno : .lose ∉ as)
    (hover : ((start k s w).1.run k as).isOver = false)
    (hcut : ((start k s w).1.run k as).isDisconnected = true) :
    ∃ result, .agentGone result ∈ ((start k s w).1.run k as).inbox := by
  obtain ⟨b, hb, hwait, -⟩ := start_waits (k := k) hpid
  have halive : b.waiter ≠ .lost := by
    rw [hwait]
    simp
  obtain ⟨c, hc, htells⟩ := started_tells (k := k) hpid as
  obtain ⟨c', hc', hlost⟩ := run_not_lost k hb halive hno
  obtain rfl : c = c' := Option.some.inj (hc.symm.trans hc')
  have hclosed : c.waiter.isOpen = false := by
    simp only [isDisconnected, hc, Bool.and_eq_true] at hcut
    simpa using hcut.2
  have hannounced : c.waiter = .announced := by
    rcases hw : c.waiter with _ | result | _ | _
    · rw [hw] at hclosed
      cases hclosed
    · rw [hw] at hclosed
      cases hclosed
    · rfl
    · exact absurd hw hlost
  simp only [Tells, hannounced, hover] at htells
  obtain ⟨result, -, hnews | ⟨habsurd, -⟩⟩ := htells
  · refine ⟨result, news_left hover ?_⟩
    rw [hnews]
    exact List.mem_singleton_self result
  · cases habsurd

end Run

/-- What the waiter's result has to be recorded as: the exit that it learned, or an exit without
code and signal if waiting failed. -/
inductive Recorded : Except Fault Exit → Exit → Prop where
  | learned (x : Exit) : Recorded (.ok x) x
  | failed (f : Fault) : Recorded (.error f) ⟨none, none⟩

lemma recorded_recorded (result : Except Fault Exit) :
    Recorded result (Supervisor.recorded result) := by
  cases result with
  | ok x => exact .learned x
  | error f => exact .failed f

/-- **The exit is recorded once and announced once, behind all that the forwarder relays.** Events
are taken from the inbox in the order in which they are sent, and the news of the exit is sent at
most once. The exit is recorded when it becomes known, before the news, and stays. Where the news
is sent it is the recorded exit that is announced; if the forwarder is over by then, as it is unless
the drain is cut short, it never relays again, and in the log only the failures of requests to stop
and at the end the entry of the exit stand behind what it has relayed. If the waiter does not die
the loop never finds its inbox cut off: once nobody can send any more, the news lies there. -/
theorem exit_announced (k : Sink σ) {s : Supervisor σ} {w : Surroundings} {pid : Nat}
    (hpid : (s.start w).result = .ok pid) (as : List Act) :
    let r₀ := (Run.start k s w).1
    let r := r₀.run k as
    let taken := r₀.inputs k as
    (taken.filterMap Loop.Input.event? ++ r.inbox = r₀.sent k as ∧
      ((r₀.sent k as).filterMap Event.news?).length ≤ 1) ∧
    (∀ x, r.supervisor.exit? = some x →
      (∀ bs, (r.run k bs).supervisor.exit? = some x) ∧
      ∃ pre result post, as = pre ++ .exit result :: post ∧ Recorded result x ∧
        (r₀.run k pre).supervisor.exit? = none ∧
        ((r₀.run k pre).step k (.exit result)).supervisor.exit? = some x ∧
        (r₀.sent k pre).filterMap Event.news? = []) ∧
    (∀ pre a post result, as = pre ++ a :: post →
      (r₀.run k pre).sent? a = some (.agentGone result) →
      let m := r₀.run k pre
      ∃ b x, m.supervisor.attached = some b ∧ b.exit = some x ∧ Recorded result x ∧
        (a = .announce → b.forwarder.isReading = false) ∧
        (b.forwarder.isReading = false →
          r.supervisor.relayOne k = r.supervisor ∧
          ∀ view ok, k.Lossless view ok → ok s.sink →
            view r.supervisor.sink = view m.supervisor.sink ++
              ((m.inputs k (a :: post)).filterMap (Loop.Input.stopError? pid)).map
                Loop.complaint ++ Loop.parting false taken)) ∧
    (.lose ∉ as → .disconnected ∉ taken ∧
      (r.isOver = false → r.isDisconnected = true → ∃ result, .agentGone result ∈ r.inbox)) := by
  intro r₀ r taken
  have hnone : r₀.supervisor.exit? = none := by
    obtain ⟨b, hb, -, hx⟩ := Run.start_waits (k := k) hpid
    rwa [Supervisor.exit?, hb]
  obtain ⟨b₀, hb₀, htells₀⟩ := Run.started_tells (k := k) hpid []
  obtain ⟨c, hc, htells⟩ := Run.started_tells (k := k) hpid as
  refine ⟨⟨r₀.run_inbox k as, htells.length_le⟩, fun x hx => ?_, ?_,
    fun hno => ⟨fun hcut => ?_, ?_⟩⟩
  · obtain ⟨pre, result, post, has, hresult, hbefore, hbehind⟩ :=
      Run.exists_exit k hb₀ htells₀ hnone hx
    obtain ⟨d, hd, htellsd⟩ := Run.started_tells (k := k) hpid pre
    have hempty : d.exit = none := by
      have hexit : (r₀.run k pre).supervisor.exit? = none := hbefore
      rwa [Supervisor.exit?, hd] at hexit
    exact ⟨Run.run_exit k hc htells hx,
      pre, result, post, has, hresult ▸ recorded_recorded result, hbefore, hbehind,
      htellsd.news_of_exit hempty⟩
  · intro pre a post result has hsent m
    obtain ⟨b, hb, hexit, hend⟩ := Run.announced_exit hpid hsent
    have hrun : r = m.run k (a :: post) := by
      rw [← Run.run_append, ← has]
    refine ⟨b, _, hb, hexit, recorded_recorded result, hend,
      fun hover => ⟨?_, fun view ok hk hok => ?_⟩⟩
    · obtain ⟨d, hd, hf⟩ := Run.run_over k hb hover (a :: post)
      rw [hrun]
      exact Run.relayOne_of_over k hd (hf ▸ hover)
    · have hok₀ : ok m.supervisor.sink :=
        (Run.run_loop hk (Run.start_writes hk hok w).1 pre).1
      have hf : m.supervisor.forwarder? = some b.forwarder := congrArg (Option.map _) hb
      obtain ⟨es, hadds⟩ := Run.run_finished hk hok₀ hf hover (a :: post)
      have hes := Run.entries_behind hpid (Run.sent_news hsent) hadds.trace
      rw [hrun, hadds.view, hes, ← has, List.append_assoc]
  · obtain ⟨pre, a, post, has, hgiven⟩ := Run.exists_given k hcut
    obtain ⟨hempty, hdisconnected, hover⟩ := Run.given_disconnected hgiven
    have hnopre : .lose ∉ pre := fun hmem => hno (has ▸ List.mem_append_left _ hmem)
    obtain ⟨result, hmem⟩ := Run.news_of_disconnected hpid hnopre hover hdisconnected
    rw [hempty] at hmem
    cases hmem
  · exact Run.news_of_disconnected hpid hno

/-- A stream that breaks, and a crash whose news is sent behind it when the host has gone. -/
def orphaned : List Act :=
  [.deliver (.fault (.kind .brokenPipe none)), .exit (.ok (.exited 1)), .hangUp, .relay,
    .announce, .receive]

/-- A wait that fails. -/
def unwaited : List Act := [.exit (.error (.os 10)), .hangUp]

theorem exit_announced_behind_relay :
    (unattached.start talking).result = .ok 7 ∧
    let r₀ := (Run.start Memory.sink unattached talking).1
    let r := r₀.run Memory.sink orphaned
    r₀.sent Memory.sink orphaned = [.agentGone (.ok (.exited 1))] ∧
      (∀ bs, (r.run Memory.sink bs).supervisor.exit? = some ⟨some 1, none⟩) ∧
      (∀ bs, ((r₀.run Memory.sink unwaited).run Memory.sink bs).supervisor.exit? =
        some ⟨none, none⟩) ∧
      .disconnected ∉ r₀.inputs Memory.sink orphaned ∧
      r.supervisor.relayOne Memory.sink = r.supervisor ∧
      r.supervisor.sink.entries.toList =
        [⟨.forwarder, .error, (StreamError.read (.kind .brokenPipe none)).message⟩,
          Loop.crash (.exited 1)] := by
  have hstart : (unattached.start talking).result = .ok 7 := rfl
  have hsent : (Run.start Memory.sink unattached talking).1.sent Memory.sink orphaned =
      [.agentGone (.ok (.exited 1))] := rfl
  have hlose : .lose ∉ orphaned := by simp [orphaned]
  obtain ⟨-, hcell, hnews, hinbox⟩ := exit_announced Memory.sink hstart orphaned
  obtain ⟨-, hfailed, -, -⟩ := exit_announced Memory.sink hstart unwaited
  obtain ⟨b, x, -, -, -, hend, hbehind⟩ := hnews (orphaned.take 4) .announce [.receive]
    (.ok (.exited 1)) rfl rfl
  obtain ⟨hover, hlog⟩ := hbehind (hend rfl)
  refine ⟨hstart, hsent, (hcell _ rfl).1, (hfailed _ rfl).1, (hinbox hlose).1, hover, ?_⟩
  rw [hlog _ _ Memory.lossless rfl]
  rfl

end Warden.Service
