import Mathlib.Tactic.Common
import Warden.Service.Run

/-!
What the loop of a run is given.

Of all that happens in a run the control loop sees only the inputs that it takes: events while it
listens, and replies while a stop waits for them. What a run reports and records is what the loop
makes of these inputs, whatever the sink answers and whatever the other tasks do in between.
-/

namespace Warden.Service

open Agent Log

/-! ### Inputs that belong to a phase -/

namespace Loop

def takes (l : Loop) (i : Input) : Bool :=
  match l.phase, i with
  | .listening, .event _ _ | .listening, .disconnected => true
  | .stopping .interrupting, .reply (.interrupted _) => true
  | .stopping (.awaiting _), .reply (.looked _ _) => true
  | .stopping .killing, .reply (.killed _) => true
  | _, _ => false

namespace Course

def takes : Course → Input → Bool
  | serving l, i => l.takes i
  | ended _, _ => false

/-- The course takes the inputs, one after another. -/
def Fits : Course → List Input → Prop
  | _, [] => True
  | c, i :: is => c.takes i = true ∧ (c.step i).1.Fits is

@[simp] lemma run_nil (c : Course) : c.run [] = (c, []) := rfl

@[simp] lemma run_cons (c : Course) (i : Input) (is : List Input) :
    c.run (i :: is) = (((c.step i).1.run is).1, (c.step i).2 ++ ((c.step i).1.run is).2) := rfl

lemma run_append (c : Course) (is js : List Input) :
    c.run (is ++ js) = (((c.run is).1.run js).1, (c.run is).2 ++ ((c.run is).1.run js).2) := by
  induction is generalizing c with
  | nil => simp
  | cons i is ih => simp [ih]

lemma fits_append {c : Course} {is js : List Input} :
    c.Fits (is ++ js) ↔ c.Fits is ∧ (c.run is).1.Fits js := by
  induction is generalizing c with
  | nil => simp [Fits]
  | cons i is ih => simp [Fits, ih, and_assoc]

/-- Nothing is left to do after the end. -/
lemma Fits.of_ended {o : Outcome} {is : List Input} (h : (ended o).Fits is) : is = [] := by
  cases is with
  | nil => rfl
  | cons i is => exact absurd h.1 (by simp [takes])

/-- An input that is not taken changes nothing. -/
lemma step_of_not_takes {c : Course} {i : Input} (h : c.takes i = false) :
    c.step i = (c, []) := by
  rcases c with l | o
  · obtain ⟨pid, policy, phase, current, stopping⟩ := l
    rcases phase with _ | _ | _ | _ <;> rcases i with ⟨e, x⟩ | _ | ⟨f | x | f⟩ <;>
      first
        | rfl
        | simp [takes, Loop.takes] at h
  · rfl

lemma run_filter_takes (c : Course) (i : Input) :
    c.run ((some i).filter c.takes).toList = c.step i := by
  by_cases h : c.takes i = true
  · have hi : (some i).filter c.takes = some i := Option.filter_eq_some_iff.mpr ⟨rfl, h⟩
    simp [hi]
  · have hi : (some i).filter c.takes = none := by simp [h]
    rw [hi, step_of_not_takes (by simpa using h)]
    rfl

end Course

end Loop

/-! ### Deeds

Performing effects adds records and nothing else, and a record decides nothing.
-/

/-- The effects beside the records. -/
def deeds (es : List Effect) : List Effect := es.filter (·.record?.isNone)

@[simp] lemma deeds_nil : deeds [] = [] := rfl

@[simp] lemma deeds_append (es fs : List Effect) : deeds (es ++ fs) = deeds es ++ deeds fs :=
  List.filter_append ..

lemma statuses_append (es fs : List Effect) :
    statuses (es ++ fs) = statuses es ++ statuses fs :=
  List.filterMap_append

lemma entries_append (es fs : List Effect) : entries (es ++ fs) = entries es ++ entries fs :=
  List.filterMap_append

lemma sleeps_append (es fs : List Effect) : sleeps (es ++ fs) = sleeps es ++ sleeps fs :=
  List.filterMap_append

lemma filterMap_deeds {α : Type} {f : Effect → Option α} (hf : ∀ r, f (.tell r) = none)
    (es : List Effect) : (deeds es).filterMap f = es.filterMap f := by
  rw [deeds, List.filterMap_filter]
  congr 1
  funext e
  cases e with
  | tell r => exact (hf r).symm
  | _ => rfl

lemma statuses_deeds (es : List Effect) : statuses (deeds es) = statuses es :=
  filterMap_deeds (fun _ => rfl) es

lemma entries_deeds (es : List Effect) : entries (deeds es) = entries es :=
  filterMap_deeds (fun _ => rfl) es

lemma sleeps_deeds (es : List Effect) : sleeps (deeds es) = sleeps es :=
  filterMap_deeds (fun _ => rfl) es

section
variable {σ : Type} (k : Sink σ)

lemma deeds_perform (s : σ) (e : Effect) : deeds (perform k s e).2 = deeds [e] := by
  cases e with
  | append e =>
    rw [perform]
    rcases k.append s e with ⟨s', _ | f⟩ <;> rfl
  | _ => rfl

lemma deeds_performAll (s : σ) (es : List Effect) : deeds (performAll k s es).2 = deeds es := by
  induction es generalizing s with
  | nil => rfl
  | cons e es ih =>
    have hcons : (performAll k s (e :: es)).2 =
        (perform k s e).2 ++ (performAll k (perform k s e).1 es).2 := rfl
    rw [hcons, deeds_append, deeds_perform, ih, ← deeds_append, List.singleton_append]

/-- Effects try their entries on the sink, and do nothing else to it. -/
lemma performAll_attempts (s : σ) (es : List Effect) :
    (performAll k s es).1 = (k.appendAll s (entries es)).1 := by
  induction es generalizing s with
  | nil => rfl
  | cons e es ih =>
    have hrest : (performAll k s (e :: es)).1 = (performAll k (perform k s e).1 es).1 := rfl
    rw [hrest, ih]
    cases e with
    | append x =>
      have hfirst : (perform k s (.append x)).1 = (k.append s x).1 := by
        rw [perform]
        rcases k.append s x with ⟨t, _ | f⟩ <;> rfl
      rw [hfirst]
      rfl
    | _ => rfl

/-- The sink notices only the deeds. -/
lemma performAll_sink (s : σ) (es : List Effect) :
    (performAll k s es).1 = (performAll k s (deeds es)).1 := by
  rw [performAll_attempts, performAll_attempts, entries_deeds]

end

/-! ### The inputs of a run -/

namespace Run

variable {σ : Type} (k : Sink σ)

/-- What an act would give to the loop. -/
def offer? (r : Run σ) : Act → Option Loop.Input
  | .receive =>
    match r.inbox with
    | e :: _ => some (.event e r.supervisor.exit?)
    | [] => if r.isDisconnected then some .disconnected else none
  | .look now => some (.reply (.looked now r.supervisor.exit?))
  | .interrupted result => some (.reply (.interrupted result))
  | .killed result => some (.reply (.killed result))
  | _ => none

/-- What an act gives to the loop. -/
def given? (r : Run σ) (a : Act) : Option Loop.Input := (r.offer? a).filter r.course.takes

/-- All that the loop takes in a run, in order. -/
def inputs : Run σ → List Act → List Loop.Input
  | _, [] => []
  | r, a :: as => (r.given? a).toList ++ inputs (step k r a) as

/-- `r'` has come from `r` by the loop's answers to `is`. -/
def Advances (r r' : Run σ) (is : List Loop.Input) : Prop :=
  r'.course = (r.course.run is).1 ∧ deeds r'.trace = deeds r.trace ++ deeds (r.course.run is).2

lemma Advances.of_eq {r r' : Run σ} (hc : r'.course = r.course) (ht : r'.trace = r.trace) :
    Advances r r' [] := by
  refine ⟨hc, ?_⟩
  simp [ht]

lemma Advances.trans {r r' r'' : Run σ} {is js : List Loop.Input} (h : Advances r r' is)
    (h' : Advances r' r'' js) : Advances r r'' (is ++ js) := by
  refine ⟨?_, ?_⟩
  · rw [h'.1, h.1, Loop.Course.run_append]
  · rw [h'.2, h.2, h.1, Loop.Course.run_append, deeds_append, List.append_assoc]

lemma input_advances (r : Run σ) (i : Loop.Input) :
    Advances r (r.input k i) ((some i).filter r.course.takes).toList := by
  refine ⟨?_, ?_⟩
  · rw [Loop.Course.run_filter_takes]
    rfl
  · have htrace : (r.input k i).trace =
        r.trace ++ (performAll k r.supervisor.sink (r.course.step i).2).2 := rfl
    rw [htrace, deeds_append, deeds_performAll, Loop.Course.run_filter_takes]

lemma isListening_iff (r : Run σ) :
    r.isListening = true ↔ ∃ l, r.course = .serving l ∧ l.phase = .listening := by
  unfold isListening
  rcases r.course with l | o <;> simp

lemma takes_of_isListening {r : Run σ} (h : r.isListening = true) (e : Event)
    (x : Option Exit) :
    r.course.takes (.event e x) = true ∧ r.course.takes .disconnected = true := by
  obtain ⟨l, hc, hl⟩ := r.isListening_iff.mp h
  simp [hc, Loop.Course.takes, Loop.takes, hl]

lemma not_takes_of_not_isListening {r : Run σ} (h : ¬r.isListening = true) (e : Event)
    (x : Option Exit) :
    r.course.takes (.event e x) = false ∧ r.course.takes .disconnected = false := by
  rcases hc : r.course with l | o
  · have hl : l.phase ≠ .listening := fun hl => h (r.isListening_iff.mpr ⟨l, hc, hl⟩)
    rcases hp : l.phase with _ | q
    · exact absurd hp hl
    · simp [Loop.Course.takes, Loop.takes, hp]
  · simp [Loop.Course.takes]

/-- The loop takes the first event, or learns that there will be none, or takes nothing. -/
lemma receive_cases (r : Run σ) :
    (∃ e es, r.inbox = e :: es ∧ r.isListening = true ∧
      r.given? .receive = some (.event e r.supervisor.exit?) ∧
      r.receive k = { r with inbox := es }.input k (.event e r.supervisor.exit?)) ∨
    (r.inbox = [] ∧ r.isListening = true ∧ r.isDisconnected = true ∧
      r.given? .receive = some .disconnected ∧ r.receive k = r.input k .disconnected) ∨
    (r.isListening = false ∨ r.inbox = [] ∧ r.isDisconnected = false) ∧
      r.given? .receive = none ∧ r.receive k = r := by
  rcases h : r.isListening with _ | _
  · have hnot := not_takes_of_not_isListening (r := r) (by simp [h])
    refine .inr (.inr ⟨.inl rfl, ?_, by simp [receive, h]⟩)
    rw [given?, offer?]
    rcases r.inbox with _ | ⟨e, es⟩
    · rcases hd : r.isDisconnected with _ | _
      · rfl
      · simp [hnot (.request .stop) none]
    · simp [hnot e]
  · have htakes := takes_of_isListening h
    rcases hb : r.inbox with _ | ⟨e, es⟩
    · rcases hd : r.isDisconnected with _ | _
      · exact .inr (.inr ⟨.inr ⟨rfl, rfl⟩, by simp [given?, offer?, hb, hd],
          by simp [receive, h, hb, hd]⟩)
      · exact .inr (.inl ⟨rfl, rfl, rfl,
          by simp [given?, offer?, hb, hd, (htakes (.request .stop) none).2],
          by simp [receive, h, hb, hd]⟩)
    · exact .inl ⟨e, es, rfl, rfl, by simp [given?, offer?, hb, (htakes e _).1],
        by simp [receive, h, hb]⟩

lemma receive_advances (r : Run σ) :
    Advances r (r.receive k) (r.given? .receive).toList := by
  obtain ⟨e, es, -, hl, hi, h⟩ | ⟨-, -, -, hi, h⟩ | ⟨-, hi, h⟩ := r.receive_cases k
  · -- the event is taken from the inbox before it is handled
    have hpop : Advances r { r with inbox := es } [] := .of_eq rfl rfl
    have htake : (some (.event e r.supervisor.exit?)).filter r.course.takes =
        some (.event e r.supervisor.exit?) :=
      Option.filter_eq_some_iff.mpr ⟨rfl, (takes_of_isListening hl e _).1⟩
    rw [hi, h, ← htake]
    exact hpop.trans (input_advances k _ _)
  · have htake : (some .disconnected).filter r.course.takes = some .disconnected :=
      Option.filter_eq_some_iff.mpr ⟨rfl, (Option.filter_eq_some_iff.mp hi).2⟩
    rw [hi, h, ← htake]
    exact input_advances k r .disconnected
  · rw [hi, h]
    exact .of_eq rfl rfl

lemma post_advances (r : Run σ) (e : Event) : Advances r (r.post e) [] := by
  unfold post
  split
  · exact .of_eq rfl rfl
  · exact .of_eq rfl rfl

lemma announce_advances (r : Run σ) (late : Bool) : Advances r (r.announce late) [] := by
  unfold announce
  split
  · next s result _ =>
    have hs : Advances r { r with supervisor := s } [] := .of_eq rfl rfl
    exact hs.trans (post_advances _ _)
  · exact .of_eq rfl rfl

lemma step_advances (r : Run σ) (a : Act) : Advances r (step k r a) (r.given? a).toList := by
  cases a with
  | request q =>
    rw [step]
    split
    · exact post_advances _ _
    · exact .of_eq rfl rfl
  | hangUp | deafen | deliver | close | relay | exit | lose => exact .of_eq rfl rfl
  | announce => exact announce_advances _ _
  | announceLate => exact announce_advances _ _
  | receive => exact receive_advances k r
  | look | interrupted | killed => exact input_advances k r _

/-- **A run is the loop's own run on the inputs it is given.** -/
theorem run_advances (r : Run σ) (as : List Act) : Advances r (run k r as) (r.inputs k as) := by
  induction as generalizing r with
  | nil => exact .of_eq rfl rfl
  | cons a as ih => exact (step_advances k r a).trans (ih _)

lemma given_fits (r : Run σ) (a : Act) : r.course.Fits (r.given? a).toList := by
  rcases h : r.given? a with _ | i
  · trivial
  · exact ⟨(Option.filter_eq_some_iff.mp h).2, trivial⟩

/-- The loop takes all its inputs. -/
theorem inputs_fit (r : Run σ) (as : List Act) : r.course.Fits (r.inputs k as) := by
  induction as generalizing r with
  | nil => trivial
  | cons a as ih =>
    refine Loop.Course.fits_append.mpr ⟨given_fits r a, ?_⟩
    rw [← (step_advances k r a).1]
    exact ih _

/-! ### The start -/

lemma start_course (s : Supervisor σ) (w : Surroundings) :
    (start k s w).1.course = startCourse s (s.start w).result := rfl

lemma start_deeds (s : Supervisor σ) (w : Surroundings) :
    deeds (start k s w).1.trace = deeds (startEffects s (s.start w).result) :=
  deeds_performAll k _ _

end Run

end Warden.Service
