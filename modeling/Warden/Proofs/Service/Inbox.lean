import Warden.Proofs.Service.Entries

/-!
The inbox of a run.

Events are taken from the inbox in the order in which they were sent: those that the loop has taken
and those that still lie there are together the events sent so far (`Run.run_inbox`). Nothing is
sent to a loop that is over, and the news of the exit is the last event that a loop takes.
-/

namespace Warden.Service

open Agent Log

/-- The event that the loop has taken from the inbox. -/
def Loop.Input.event? : Input → Option Event
  | .event e _ => some e
  | _ => none

/-- The news of the exit. -/
def Event.news? : Event → Option (Except Fault Exit)
  | .agentGone result => some result
  | .request _ => none

namespace Loop.Course

lemma run_ended (o : Outcome) (is : List Input) : (ended o).run is = (ended o, []) := by
  induction is with
  | nil => rfl
  | cons i is ih =>
    rw [run_cons]
    exact Prod.ext (congrArg Prod.fst ih) (congrArg Prod.snd ih)

end Loop.Course

namespace Run

variable {σ : Type}

/-- The event that an act puts into the inbox, which is gone once the loop is over. -/
def sent? (r : Run σ) (a : Act) : Option Event :=
  if r.isOver then none
  else
    match a with
    | .request q => if r.host then some (.request q) else none
    | .announce => (r.supervisor.announce false).2.map .agentGone
    | .announceLate => (r.supervisor.announce true).2.map .agentGone
    | _ => none

variable (k : Sink σ)

/-- All events that are put into the inbox in a run, in order. -/
def sent : Run σ → List Act → List Event
  | _, [] => []
  | r, a :: as => (r.sent? a).toList ++ sent (step k r a) as

/-! ### Runs in two parts -/

lemma inputs_append (r : Run σ) (as bs : List Act) :
    r.inputs k (as ++ bs) = r.inputs k as ++ (r.run k as).inputs k bs := by
  induction as generalizing r with
  | nil => rfl
  | cons a as ih => rw [List.cons_append, inputs, inputs, ih, run_cons, List.append_assoc]

/-- Every input has been given by one of the acts. -/
lemma exists_given {r : Run σ} {as : List Act} {i : Loop.Input} (h : i ∈ r.inputs k as) :
    ∃ pre a post, as = pre ++ a :: post ∧ (r.run k pre).given? a = some i := by
  induction as generalizing r with
  | nil => cases h
  | cons a as ih =>
    rcases List.mem_append.mp h with hi | hi
    · exact ⟨[], a, as, rfl, Option.mem_toList.mp hi⟩
    · obtain ⟨pre, b, post, rfl, hb⟩ := ih hi
      exact ⟨a :: pre, b, post, rfl, hb⟩

/-! ### The end -/

lemma isOver_eq (r : Run σ) : r.isOver = r.course.outcome?.isSome := by
  unfold isOver
  rcases r.course with l | o <;> rfl

lemma course_of_isOver {r : Run σ} (h : r.isOver = true) : ∃ o, r.course = .ended o := by
  rcases hc : r.course with l | o
  · rw [isOver_eq, hc] at h
    cases h
  · exact ⟨o, rfl⟩

/-- A run that is over stays so. -/
lemma isOver_step {r : Run σ} (h : r.isOver = true) (a : Act) : (step k r a).isOver = true := by
  obtain ⟨o, ho⟩ := course_of_isOver h
  rw [isOver_eq, (step_advances k r a).1, ho, Loop.Course.run_ended]
  rfl

lemma isOver_run {r : Run σ} (h : r.isOver = true) (as : List Act) :
    (run k r as).isOver = true := by
  induction as generalizing r with
  | nil => exact h
  | cons a as ih => exact ih (isOver_step k h a)

/-- An input with an outcome is the last one, and the run is over behind it. -/
lemma isOver_of_mem {r : Run σ} {as : List Act} {i : Loop.Input} {o : Outcome}
    (hi : i ∈ r.inputs k as) (ho : i.outcome? = some o) : (run k r as).isOver = true := by
  rcases hc : r.course with l | o'
  · have hturns := turns k hc as
    rw [isOver_eq, hturns.outcome, hturns.getLast_of_mem hi ho]
    exact congrArg Option.isSome ho
  · have hover : r.isOver = true := by
      rw [isOver_eq, hc]
      rfl
    exact isOver_run k hover as

lemma isOver_of_takes {r : Run σ} {i : Loop.Input} (h : r.course.takes i = true) :
    r.isOver = false := by
  rw [isOver_eq]
  rcases hc : r.course with l | o
  · rfl
  · rw [hc] at h
    cases h

/-- Only an empty inbox that nobody can send to reports that it is cut off. -/
lemma given_disconnected {r : Run σ} {a : Act} (h : r.given? a = some .disconnected) :
    r.inbox = [] ∧ r.isDisconnected = true ∧ r.isOver = false := by
  obtain ⟨hoffer, htakes⟩ := Option.filter_eq_some_iff.mp h
  cases a with
  | receive =>
    rw [offer?] at hoffer
    rcases hb : r.inbox with _ | ⟨e, es⟩
    · rcases hd : r.isDisconnected with _ | _
      · simp [hb, hd] at hoffer
      · exact ⟨rfl, rfl, isOver_of_takes htakes⟩
    · simp [hb] at hoffer
  | look | interrupted | killed =>
    rw [offer?] at hoffer
    cases hoffer
  | _ => cases hoffer

/-! ### First in, first out -/

lemma post_inbox (r : Run σ) (e : Event) :
    (r.post e).inbox = r.inbox ++ (if r.isOver then none else some e).toList := by
  unfold post
  split
  · exact (List.append_nil _).symm
  · rfl

lemma announce_inbox (r : Run σ) (late : Bool) :
    (r.announce late).inbox = r.inbox ++
      (if r.isOver then none else (r.supervisor.announce late).2.map .agentGone).toList := by
  unfold announce
  rcases r.supervisor.announce late with ⟨s, _ | result⟩
  · simp
  · exact post_inbox { r with supervisor := s } (.agentGone result)

lemma receive_inbox (r : Run σ) :
    (r.given? .receive).toList.filterMap Loop.Input.event? ++ (r.receive k).inbox = r.inbox := by
  obtain ⟨e, es, hb, -, hi, h⟩ | ⟨-, -, -, hi, h⟩ | ⟨-, hi, h⟩ := r.receive_cases k
  · rw [hi, h, hb]
    rfl
  · rw [hi, h]
    rfl
  · rw [hi, h]
    rfl

/-- What an act takes from the inbox, at its head, and what it puts into it, at its end. -/
lemma step_inbox (r : Run σ) (a : Act) :
    (r.given? a).toList.filterMap Loop.Input.event? ++ (step k r a).inbox =
      r.inbox ++ (r.sent? a).toList := by
  cases a with
  | request q =>
    have hgiven : r.given? (.request q) = none := rfl
    rw [hgiven]
    simp only [step, sent?]
    rcases r.host with _ | _
    · simp
    · exact post_inbox r (.request q)
  | announce => exact announce_inbox r false
  | announceLate => exact announce_inbox r true
  | receive =>
    have hsent : r.sent? .receive = none := by simp [sent?]
    rw [hsent, Option.toList_none, List.append_nil]
    exact receive_inbox k r
  | look | interrupted | killed =>
    have hreply (i : Stop.Reply) :
        ((some (Loop.Input.reply i)).filter r.course.takes).toList.filterMap
          Loop.Input.event? = [] := by
      rcases hi : (some (Loop.Input.reply i)).filter r.course.takes with _ | j
      · rfl
      · obtain rfl := Option.some.inj (Option.filter_eq_some_iff.mp hi).1
        rfl
    simp only [given?, offer?, hreply, sent?, ite_self, Option.toList_none, List.append_nil]
    rfl
  | hangUp | deafen | deliver | close | relay | exit | lose =>
    simp only [sent?, ite_self, Option.toList_none, List.append_nil]
    rfl

/-- **Events are taken in the order in which they were sent.** -/
theorem run_inbox (r : Run σ) (as : List Act) :
    (r.inputs k as).filterMap Loop.Input.event? ++ (run k r as).inbox =
      r.inbox ++ r.sent k as := by
  induction as generalizing r with
  | nil => exact (List.append_nil _).symm
  | cons a as ih =>
    rw [inputs, List.filterMap_append, List.append_assoc, run_cons, ih, ← List.append_assoc,
      step_inbox, sent, List.append_assoc]

end Run

end Warden.Service
