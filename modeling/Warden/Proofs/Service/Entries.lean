import Warden.Proofs.Service.Turns

/-!
The entries of the loop.

The loop records every request to stop that fails, in order, and at the end perhaps the agent's
exit. An unsuccessful exit counts as a crash unless a request to stop has succeeded before, and a
request that finds the exit already recorded succeeds as well.
-/

namespace Warden.Service

open Agent Log

/-- The result of a request that is over. -/
def Stop.Progress.result? : Stop.Progress → Option (Except StopError Unit)
  | .done r => some r
  | .pending _ => none

namespace Loop

/-- What a request to stop returns when the loop takes an input, if it returns. -/
def returned? (l : Loop) : Input → Option (Except StopError Unit)
  | .event (.request .interrogate) _ => none
  | .event (.request _) x => (Stop.start (some x)).1.result?
  | .reply r =>
    match l.phase with
    | .stopping p => (Stop.step l.pid l.policy p r).1.result?
    | .listening => none
  | _ => none

namespace Input

/-- The failure of a request to stop the agent `pid`. -/
def stopError? (pid : Nat) : Input → Option StopError
  | .reply (.interrupted (.error f)) => some (.interrupt pid f)
  | .reply (.killed (.error f)) => some (.kill pid f)
  | _ => none

/-- A request to stop finds the exit recorded. -/
def isMoot : Input → Bool
  | .event (.request .stop) (some _) | .event (.request .shutdown) (some _) => true
  | _ => false

/-- A request to stop succeeds. -/
def relieves : Input → Bool
  | .reply (.looked _ (some _)) | .reply (.killed (.ok ())) => true
  | i => i.isMoot

/-- What is recorded about the agent's end. -/
def farewell (stopping : Bool) : Input → List Entry
  | .event (.agentGone result) _ => entries (Loop.farewell stopping result)
  | _ => []

lemma relieves_request {q : Request} (hq : q ≠ .interrogate) (x : Exit) :
    relieves (.event (.request q) (some x)) = true := by
  cases q with
  | interrogate => exact absurd rfl hq
  | stop | shutdown => rfl

lemma not_relieves_request (q : Request) : relieves (.event (.request q) none) = false := by
  cases q <;> rfl

end Input

/-- The entry of a request to stop that failed. -/
def complaint (e : StopError) : Entry := ⟨.stopFailure, .error, e.message⟩

/-- The entry of a crash. -/
def crash (x : Exit) : Entry := ⟨.stopFailure, .error, s!"agent exited with {x.text}"⟩

/-- What is recorded about the end, after the inputs `is`. -/
def parting (stopping : Bool) (is : List Input) : List Entry :=
  match is.getLast? with
  | some i => i.farewell (stopping || is.any Input.relieves)
  | none => []

/-! ### Entries of turns -/

lemma Turn.next_entries {l l' : Loop} {i : Input} {es : List Effect}
    (t : l.Turn i (.serving l') es) :
    entries es = ((i.stopError? l.pid).map complaint).toList ∧ i.farewell l'.stopping = [] ∧
      l'.pid = l.pid ∧ l'.stopping = (l.stopping || i.relieves) := by
  cases t with
  | ask =>
    refine ⟨rfl, rfl, rfl, ?_⟩
    rw [Input.not_relieves_request, Bool.or_false]
  | moot _ hq =>
    refine ⟨rfl, rfl, rfl, ?_⟩
    rw [Input.relieves_request hq, Bool.or_true]
    rfl
  | heed | kill => exact ⟨rfl, rfl, rfl, (Bool.or_true _).symm⟩
  | _ => exact ⟨rfl, rfl, rfl, (Bool.or_false _).symm⟩

lemma Turn.last_entries {l : Loop} {i : Input} {o : Outcome} {es : List Effect}
    (t : l.Turn i (.ended o) es) :
    entries es = ((i.stopError? l.pid).map complaint).toList ++ i.farewell l.stopping ∧
      i.relieves = false := by
  cases t with
  | part =>
    refine ⟨?_, rfl⟩
    rw [entries_append]
    exact List.append_nil _
  | cutOff | fail => exact ⟨rfl, rfl⟩

/-- The entries of a chain are the complaints, in order, and what is recorded about the end. -/
theorem Turns.entries_eq {l : Loop} {is : List Input} {c : Course} {es : List Effect}
    (h : l.Turns is c es) : entries es =
      (is.filterMap (Input.stopError? l.pid)).map complaint ++ parting l.stopping is := by
  induction h with
  | nil => rfl
  | @last l i o es t =>
    obtain ⟨hes, hi⟩ := t.last_entries
    rw [hes, parting]
    simp only [List.getLast?_singleton, List.any_cons, List.any_nil, hi, Bool.or_false]
    rcases hf : i.stopError? l.pid with _ | e <;> simp [hf]
  | @next l l' i is c es fs t ts ih =>
    obtain ⟨hes, hi, hpid, hstop⟩ := t.next_entries
    -- the last input is still to come, and finds the flag as this turn leaves it
    have hpart : parting l.stopping (i :: is) = parting l'.stopping is := by
      rcases is with _ | ⟨j, is⟩
      · rw [parting, parting]
        simp only [List.getLast?_singleton, List.any_cons, List.any_nil, Bool.or_false, ← hstop,
          hi, List.getLast?_nil]
      · rw [parting, parting, List.getLast?_cons_cons, List.any_cons, hstop, Bool.or_assoc]
    rw [entries_append, hes, ih, hpart, hpid]
    rcases hf : i.stopError? l.pid with _ | e <;> simp [hf]

/-! ### Stops without an interrupt -/

/-- No interrupt has been delivered for the request under way. -/
def Unheard (l : Loop) : Prop := l.phase = .listening ∨ l.phase = .stopping .interrupting

lemma Unheard.absurd {l : Loop} (h : l.Unheard) {p : Stop.Phase} (hp : l.phase = .stopping p)
    (hne : p ≠ .interrupting) : False := by
  unfold Unheard at h
  rw [hp] at h
  rcases h with h | h
  · cases h
  · exact hne (Phase.stopping.inj h)

lemma Turn.unheard {l l' : Loop} {i : Input} {es : List Effect} (t : l.Turn i (.serving l') es)
    (hl : l.Unheard) (hi : ∀ now, i ≠ .reply (.interrupted (.ok now))) : l'.Unheard := by
  cases t with
  | echo => exact hl
  | ask => exact .inr rfl
  | moot | refuse => exact .inl rfl
  | @interrupt now => exact absurd rfl (hi now)
  | await hp | heed hp | lose hp | kill hp => exact (hl.absurd hp (by simp)).elim

/-- Where no interrupt is delivered, a request to stop succeeds only if it is moot. -/
lemma Turn.relieves_eq {l : Loop} {i : Input} {c : Course} {es : List Effect}
    (t : l.Turn i c es) (hl : l.Unheard) : i.relieves = i.isMoot := by
  cases t with
  | @ask q | @moot q => cases q <;> rfl
  | heed hp | kill hp => exact (hl.absurd hp (by simp)).elim
  | _ => rfl

lemma Turns.relieves_eq {l : Loop} {is : List Input} {c : Course} {es : List Effect}
    (h : l.Turns is c es) (hl : l.Unheard)
    (hno : ∀ now, Input.reply (.interrupted (.ok now)) ∉ is) :
    is.any Input.relieves = is.any Input.isMoot := by
  induction h with
  | nil => rfl
  | last t => rw [List.any_cons, List.any_cons, t.relieves_eq hl, List.any_nil, List.any_nil]
  | @next l l' i is c es fs t ts ih =>
    have hi (now : Nat) : i ≠ .reply (.interrupted (.ok now)) := fun hi =>
      hno now (hi ▸ List.mem_cons_self)
    have hrest (now : Nat) : .reply (.interrupted (.ok now)) ∉ is := fun hmem =>
      hno now (List.mem_cons_of_mem _ hmem)
    rw [List.any_cons, List.any_cons, t.relieves_eq hl, ih (t.unheard hl hi) hrest]

/-- The news that ends the loop is its last input. -/
lemma Turns.getLast_of_mem {l : Loop} {is : List Input} {c : Course} {es : List Effect}
    (h : l.Turns is c es) {i : Input} (hi : i ∈ is) {o : Outcome} (ho : i.outcome? = some o) :
    is.getLast? = some i := by
  induction h with
  | nil => cases hi
  | last t =>
    rw [List.mem_singleton.mp hi]
    rfl
  | @next l l' j is c es fs t ts ih =>
    rcases List.mem_cons.mp hi with rfl | hi
    · have hnone : i.outcome? = none := t.outcome.symm
      rw [hnone] at ho
      cases ho
    · have hlast := ih hi
      rcases is with _ | ⟨k, is⟩
      · cases hi
      · exact hlast

/-! ### Crashes -/

lemma head_append {s t : String} {c : Char} (h : s.toList.head? = some c) :
    (s ++ t).toList.head? = some c := by
  rw [String.toList_append, List.head?_append, h, Option.some_or]

lemma head_message (e : StopError) : e.message.toList.head? = some 'F' := by
  cases e with
  | interrupt pid f =>
    have h : "Failed to interrupt agent (PID ".toList.head? = some 'F' := by decide
    exact head_append (head_append (head_append h))
  | kill pid f =>
    have h : "Failed to kill agent (PID ".toList.head? = some 'F' := by decide
    exact head_append (head_append (head_append h))

lemma complaint_ne_crash (e : StopError) (x : Exit) : complaint e ≠ crash x := by
  intro h
  have h₁ : "agent exited with ".toList.head? = some 'a' := by decide
  have h₂ : (crash x).message.toList.head? = some 'a' := head_append h₁
  have h₃ := head_message e
  have hmessage : e.message = (crash x).message := congrArg Entry.message h
  rw [hmessage, h₂] at h₃
  exact absurd (Option.some.inj h₃) (by decide)

lemma farewell_failure {x : Exit} (hx : x.success = false) (stopping : Bool) :
    entries (farewell stopping (.ok x)) = if stopping then [] else [crash x] := by
  simp only [farewell, hx, Bool.false_or]
  cases stopping <;> rfl

end Loop

lemma Run.entries_of_started {σ : Type} (k : Sink σ) {s : Supervisor σ} {w : Surroundings}
    {pid : Nat} (hpid : (s.start w).result = .ok pid) (as : List Act) :
    Service.entries ((Run.start k s w).1.run k as).trace =
      (((Run.start k s w).1.inputs k as).filterMap (Loop.Input.stopError? pid)).map
        Loop.complaint ++ Loop.parting false ((Run.start k s w).1.inputs k as) := by
  obtain ⟨es, hturns, hdeeds⟩ := turns_of_started k hpid as
  rw [← entries_deeds, hdeeds, ← deeds_append, entries_deeds, entries_append,
    hturns.entries_eq]
  rfl

/-- A request that meets the recorded exit returns at once, without a signal, and counts as a
success. -/
lemma Loop.Course.moot_request {c : Course} {q : Request} {y : Exit}
    (htakes : c.takes (.event (.request q) (some y)) = true) (hq : q ≠ .interrogate) :
    ∃ l, c = .serving l ∧ l.returned? (.event (.request q) (some y)) = some (.ok ()) ∧
      l.step (.event (.request q) (some y)) =
        (.serving { l with current := .stopPending, stopping := true },
          [.tell (.info s!"Received {q.text} request; stopping agent"), .report .stopPending]) := by
  rcases c with l | o
  · have hphase : l.phase = .listening := by
      rcases hp : l.phase with _ | _ | _ | _
      · rfl
      all_goals simp [takes, Loop.takes, hp] at htakes
    have hstep := (Turn.moot (x := y) hphase hq).step_eq
    obtain ⟨pid, policy, phase, current, stopping⟩ := l
    obtain rfl : phase = .listening := hphase
    refine ⟨_, rfl, ?_, hstep⟩
    cases q with
    | interrogate => exact absurd rfl hq
    | stop | shutdown => rfl
  · cases htakes

/-- **A crash is recorded once, unless a request to stop came upon the recorded exit.** Such a
request returns at once and without a failure. It is reported, but signals nothing, and from then
on the service counts as stopping. -/
theorem crash_recorded {σ : Type} (k : Sink σ) (s : Supervisor σ) (w : Surroundings)
    (as : List Act) (x : Exit) (seen : Option Exit) :
    let r₀ := (Run.start k s w).1
    let taken := r₀.inputs k as
    .event (.agentGone (.ok x)) seen ∈ taken → x.success = false →
      (∀ now, .reply (.interrupted (.ok now)) ∉ taken) →
      ((entries (r₀.run k as).trace).count (Loop.crash x) =
        if taken.any Loop.Input.isMoot then 0 else 1) ∧
      ∀ before q y after, taken = before ++ .event (.request q) (some y) :: after →
        q ≠ .interrogate →
        ∃ l, (r₀.course.run before).1 = .serving l ∧
          l.returned? (.event (.request q) (some y)) = some (.ok ()) ∧
          l.step (.event (.request q) (some y)) =
            (.serving { l with current := .stopPending, stopping := true },
              [.tell (.info s!"Received {q.text} request; stopping agent"),
                .report .stopPending]) := by
  intro r₀ taken hgone hx hno
  refine ⟨?_, fun before q y after htaken hq => ?_⟩
  · rcases hres : (s.start w).result with e | pid
    · have htaken : taken = [] := (Run.of_not_started k hres as).1
      rw [htaken] at hgone
      cases hgone
    · obtain ⟨es, hturns, -⟩ := Run.turns_of_started k hres as
      have hlast : taken.getLast? = some (.event (.agentGone (.ok x)) seen) :=
        hturns.getLast_of_mem hgone rfl
      have hmoot : taken.any Loop.Input.relieves = taken.any Loop.Input.isMoot :=
        hturns.relieves_eq (.inl rfl) hno
      have hparting : Loop.parting false taken =
          if taken.any Loop.Input.isMoot then [] else [Loop.crash x] := by
        rw [Loop.parting, hlast, ← hmoot]
        exact Loop.farewell_failure hx _
      have hothers : Loop.crash x ∉
          (taken.filterMap (Loop.Input.stopError? pid)).map Loop.complaint := by
        intro h
        obtain ⟨e, -, he⟩ := List.mem_map.mp h
        exact Loop.complaint_ne_crash e x he
      have htrace : entries (r₀.run k as).trace =
          (taken.filterMap (Loop.Input.stopError? pid)).map Loop.complaint ++
            Loop.parting false taken := Run.entries_of_started k hres as
      rw [htrace, hparting, List.count_append, List.count_eq_zero.mpr hothers, Nat.zero_add]
      split
      · exact List.count_nil
      · exact List.count_singleton_self
  · have hfits : r₀.course.Fits taken := r₀.inputs_fit k as
    rw [htaken] at hfits
    obtain ⟨-, htakes, -⟩ := Loop.Course.fits_append.mp hfits
    exact Loop.Course.moot_request htakes hq

/-- A stop that is refused, and a crash. -/
def crashed : List Act :=
  [.request .stop, .receive, .interrupted (.error (.os 1)), .exit (.ok (.exited 1)),
    .announceLate, .receive]

/-- A crash that a stop comes upon before it is announced. -/
def unnoticed : List Act :=
  [.exit (.ok (.exited 1)), .request .stop, .receive, .announceLate, .receive]

theorem crash_recorded_once :
    let r₀ := (Run.start Memory.sink unattached (silent 7)).1
    let gone : Loop.Input := .event (.agentGone (.ok (.exited 1))) (some (.exited 1))
    let moot : Loop.Input := .event (.request .stop) (some (.exited 1))
    (Exit.exited 1).success = false ∧
    (gone ∈ r₀.inputs Memory.sink crashed ∧
      (∀ now, .reply (.interrupted (.ok now)) ∉ r₀.inputs Memory.sink crashed) ∧
      (entries (r₀.run Memory.sink crashed).trace).count (Loop.crash (.exited 1)) = 1) ∧
    r₀.inputs Memory.sink unnoticed = [moot, gone] ∧
      (entries (r₀.run Memory.sink unnoticed).trace).count (Loop.crash (.exited 1)) = 0 ∧
      ∃ l, r₀.course = .serving l ∧ l.returned? moot = some (.ok ()) ∧
        (l.step moot).2 = [.tell (.info "Received stop request; stopping agent"),
          .report .stopPending] := by
  intro r₀ gone moot
  have hcrashed : r₀.inputs Memory.sink crashed =
      [.event (.request .stop) none, .reply (.interrupted (.error (.os 1))), gone] := rfl
  have hunnoticed : r₀.inputs Memory.sink unnoticed = [moot, gone] := rfl
  have hgone : gone ∈ r₀.inputs Memory.sink crashed := by simp [hcrashed]
  have hgone' : gone ∈ r₀.inputs Memory.sink unnoticed := by simp [hunnoticed]
  have hno (now : Nat) : .reply (.interrupted (.ok now)) ∉ r₀.inputs Memory.sink crashed := by
    simp [hcrashed, gone]
  have hno' (now : Nat) : .reply (.interrupted (.ok now)) ∉ r₀.inputs Memory.sink unnoticed := by
    simp [hunnoticed, moot, gone]
  obtain ⟨honce, -⟩ := crash_recorded Memory.sink unattached (silent 7) crashed (.exited 1)
    (some (.exited 1)) hgone rfl hno
  obtain ⟨hnever, hmoot⟩ := crash_recorded Memory.sink unattached (silent 7) unnoticed (.exited 1)
    (some (.exited 1)) hgone' rfl hno'
  obtain ⟨l, hl, hreturned, hstep⟩ := hmoot [] .stop (.exited 1) [gone] hunnoticed (by simp)
  exact ⟨rfl, ⟨hgone, hno, honce⟩, hunnoticed, hnever, l, hl, hreturned, congrArg Prod.snd hstep⟩

theorem crash_unnoticed :
    let r₀ := (Run.start Memory.sink unattached (silent 7)).1
    let taken := r₀.inputs Memory.sink unnoticed
    .event (.agentGone (.ok (.exited 1))) (some (.exited 1)) ∈ taken ∧
      (Exit.exited 1).success = false ∧ (∀ now, .reply (.interrupted (.ok now)) ∉ taken) ∧
      (entries (r₀.run Memory.sink unnoticed).trace).count (Loop.crash (.exited 1)) ≠ 1 := by
  have htaken : (Run.start Memory.sink unattached (silent 7)).1.inputs Memory.sink unnoticed =
      [.event (.request .stop) (some (.exited 1)),
        .event (.agentGone (.ok (.exited 1))) (some (.exited 1))] := rfl
  have hnone : entries ((Run.start Memory.sink unattached (silent 7)).1.run Memory.sink
      unnoticed).trace = [] := rfl
  simp only [htaken, hnone]
  exact ⟨by simp, rfl, by simp, by simp⟩

end Warden.Service
