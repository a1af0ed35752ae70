import Warden.Proofs.Service.Logs
import Warden.Proofs.Service.Verdicts

/-!
The log of a run, entry by entry.

What starting and the requests to stop have returned and the last input of the loop decide what
the loop has written (`due`).
-/

namespace Warden.Service

open Agent Log Diagnostics

variable {σ : Type} {k : Sink σ} {view : σ → List Entry} {ok : σ → Prop}

/-- The failure of a request to stop, if it failed. -/
def failure? : Except StopError Unit → Option StopError
  | .ok () => none
  | .error e => some e

/-- The entry behind the last input of a run, if that is the news of the exit. -/
def finalEntry (vs : List (Except StopError Unit)) : Option Loop.Input → Option Entry
  | some (.event (.agentGone result) _) => exitEntry (vs.any Except.isOk) result
  | _ => none

namespace Loop

lemma Input.failure_verdict (pid : Nat) (i : Input) :
    (i.verdict? pid).bind failure? = i.stopError? pid := by
  rcases hr : i.relieves with _ | _
  · rw [verdict?, hr]
    rcases i.stopError? pid with _ | e <;> rfl
  · rw [verdict?, hr]
    rcases i with ⟨⟨_ | _ | _⟩ | result, _ | x⟩ | _ | ⟨⟨f | _⟩ | ⟨_ | x⟩ | ⟨_ | x⟩ | ⟨f | _⟩⟩ <;>
      first
        | rfl
        | cases hr

lemma failures_verdicts (pid : Nat) (is : List Input) :
    (is.filterMap (Input.verdict? pid)).filterMap failure? =
      is.filterMap (Input.stopError? pid) := by
  rw [List.filterMap_filterMap]
  exact congrArg (is.filterMap ·) (funext (Input.failure_verdict pid))

lemma any_verdicts (pid : Nat) (is : List Input) :
    (is.filterMap (Input.verdict? pid)).any Except.isOk = is.any Input.relieves := by
  induction is with
  | nil => rfl
  | cons i is ih =>
    rw [List.any_cons, ← ih]
    rcases hr : i.relieves with _ | _
    · rcases he : i.stopError? pid with _ | e <;>
        simp [Input.verdict?, hr, he, Except.isOk, Except.toBool]
    · simp [Input.verdict?, hr, Except.isOk, Except.toBool]

lemma parting_eq (pid : Nat) (is : List Input) :
    parting false is =
      (finalEntry (is.filterMap (Input.verdict? pid)) is.getLast?).toList := by
  rw [parting]
  rcases hlast : is.getLast? with _ | (⟨q | result, x⟩ | _ | r)
  · rfl
  · rfl
  · rw [finalEntry, any_verdicts]
    exact entries_farewell _ result
  · rfl
  · rfl

end Loop

lemma Run.entries_of_not_started {s : Supervisor σ} {w : Surroundings} {e : SpawnError}
    (he : (s.start w).result = .error e) (as : List Act) :
    entries ((Run.start k s w).1.run k as).trace = [⟨.startFailure, .error, e.message⟩] := by
  rw [← entries_deeds, (run_advances k _ as).2, (of_not_started k he as).1, start_deeds, he]
  rfl

/-- What the loop of a run has to write, by what starting and the requests to stop have returned
and the last input that the loop has taken. -/
def due (started : Except SpawnError Nat) (vs : List (Except StopError Unit))
    (last : Option Loop.Input) : List Entry :=
  match started with
  | .error e => [⟨.startFailure, .error, e.message⟩]
  | .ok _ => (vs.filterMap failure?).map Loop.complaint ++ (finalEntry vs last).toList

lemma Run.entries_eq_due (s : Supervisor σ) (w : Surroundings) (as : List Act) :
    let taken := (Run.start k s w).1.inputs k as
    entries ((Run.start k s w).1.run k as).trace =
      due (s.start w).result ((Run.start k s w).1.course.verdicts taken) taken.getLast? := by
  intro taken
  rcases hres : (s.start w).result with e | pid
  · exact Run.entries_of_not_started hres as
  · obtain ⟨es, hturns, -⟩ := Run.turns_of_started k hres as
    have hcourse : (Run.start k s w).1.course = .serving (.ofAgent pid s.policy) := by
      rw [Run.start_course, hres]
      rfl
    have hvs : (Run.start k s w).1.course.verdicts taken =
        taken.filterMap (Loop.Input.verdict? pid) := by
      rw [hcourse]
      exact hturns.verdicts_eq
    rw [Run.entries_of_started k hres as, hvs, due, Loop.failures_verdicts, Loop.parting_eq pid]

/-- **The log of a run is fully accounted for.** The loop writes about a start that fails, and then
nothing; otherwise about every request to stop that fails, in order, and at the end about the exit,
if its news ends the run and the exit is unknown, or is a failure and no request to stop has
succeeded. It never writes as the forwarder, nor the forwarder as the loop. What the forwarder
writes is, as far as it has come, what the stream relayed alone makes, and all of it once the
forwarder is over. -/
theorem log_accounted (hk : k.Lossless view ok) (s : Supervisor σ) (hs : ok s.sink)
    (w : Surroundings) (as : List Act) :
    let r₀ := (Run.start k s w).1
    let r := r₀.run k as
    let taken := r₀.inputs k as
    let vs := r₀.course.verdicts taken
    ofLoop (view r.supervisor.sink) =
      ofLoop (view s.sink) ++ due (s.start w).result vs taken.getLast? ∧
    (∀ result seen, .event (.agentGone result) seen ∈ taken →
      taken.getLast? = some (.event (.agentGone result) seen) ∧ r.outcome? = some .stopped) ∧
    ((∀ e ∈ entries r.trace, e.isStreamed = false) ∧ ∀ i : Item, i.entry.isStreamed = true) ∧
    ∀ pid reader, (s.start w).supervisor = s.attach pid reader → OnOpen reader.closed as →
      let alone := relay k s.sink ((reader.feed (delivered as)).close)
      ofStream (view r.supervisor.sink) <+: ofStream (view alone.sink) ∧
      ((∀ f, r.supervisor.forwarder? = some f → f.isReading = false) →
        ofStream (view r.supervisor.sink) = ofStream (view alone.sink)) := by
  intro r₀ r taken vs
  obtain ⟨hok, hlog₀, hstream₀, hfwd₀⟩ := Run.start_writes hk hs w
  obtain ⟨-, es, hlog, htrace⟩ := Run.run_loop hk hok as
  have hdue : entries r.trace = due (s.start w).result vs taken.getLast? :=
    Run.entries_eq_due s w as
  have htotal : ofLoop (view r.supervisor.sink) = ofLoop (view s.sink) ++ entries r.trace := by
    rw [hlog, htrace, hlog₀, List.append_assoc]
  refine ⟨hdue ▸ htotal, fun result seen hgone => ?_, ⟨fun e he => ?_, Item.isStreamed_entry⟩,
    fun pid reader hattach hopen => ?_⟩
  · rcases hres : (s.start w).result with e | pid
    · have htaken : taken = [] := (Run.of_not_started k hres as).1
      rw [htaken] at hgone
      cases hgone
    · obtain ⟨es, hturns, -⟩ := Run.turns_of_started k hres as
      have hlast := hturns.getLast_of_mem hgone rfl
      refine ⟨hlast, ?_⟩
      rw [Run.outcome_eq, hturns.outcome, hlast]
      rfl
  · have hmem : e ∈ ofLoop (view r.supervisor.sink) := htotal ▸ List.mem_append_right _ he
    simpa using (List.mem_filter.mp hmem).2
  · intro alone
    have hf₀ : r₀.supervisor.forwarder? = some (.reading reader) := by
      rw [hfwd₀, hattach]
      rfl
    obtain ⟨f, hf, hsame⟩ := Run.run_stream hk hok hf₀ as fun rd hrd => by
      obtain rfl : reader = rd := by injection hrd
      exact hopen
    have halone : ofStream (view alone.sink) =
        ofStream (view r.supervisor.sink) ++ (f.owed []).map Item.entry := by
      rw [hsame, hstream₀, Diagnostics.relay_view hk hs, ofStream_append, ofStream_items,
        Forwarder.owed_reading]
      rfl
    refine ⟨halone ▸ List.prefix_append _ _, fun hover => ?_⟩
    rw [halone, Forwarder.owed_of_not_reading (hover f hf), List.map_nil, List.append_nil]

/-- Surroundings in which an agent starts whose stream is open. -/
def talking : Surroundings where
  platform := .unix
  directory := .ok "/opt"
  launchable _ := true
  launch _ := .ok (7, .ofReads [] false)

/-- A stream that breaks, a stop that is refused, and a crash. -/
def torn : List Act :=
  [.deliver (.fault (.kind .brokenPipe none)), .request .stop, .receive,
    .interrupted (.error (.os 1)), .relay, .exit (.ok (.exited 1)), .announce, .receive]

theorem log_accounted_torn :
    let r := (Run.start Memory.sink unattached talking).1.run Memory.sink torn
    let alone := relay Memory.sink unattached.sink
      (((Reader.ofReads [] false).feed (delivered torn)).close)
    unattached.sink.capacity = none ∧ OnOpen false torn ∧ r.outcome? = some .stopped ∧
      ofLoop r.supervisor.sink.entries.toList =
        [Loop.complaint (.interrupt 7 (.os 1)), Loop.crash (.exited 1)] ∧
      ofStream r.supervisor.sink.entries.toList = ofStream alone.sink.entries.toList := by
  have htaken : (Run.start Memory.sink unattached talking).1.inputs Memory.sink torn =
      [.event (.request .stop) none, .reply (.interrupted (.error (.os 1))),
        .event (.agentGone (.ok (.exited 1))) (some (.exited 1))] := rfl
  have hended : ((Run.start Memory.sink unattached talking).1.run Memory.sink
      torn).supervisor.forwarder? = some .ended := rfl
  have hopen : OnOpen false torn := ⟨rfl, trivial⟩
  have hattach : (unattached.start talking).supervisor =
      unattached.attach 7 (.ofReads [] false) := rfl
  have h := log_accounted Memory.lossless unattached rfl talking torn
  simp only [htaken] at h ⊢
  obtain ⟨hloop, hend, -, hstream⟩ := h
  have hgone := hend (.ok (.exited 1)) (some (.exited 1)) (by simp)
  have hrelayed := (hstream 7 (.ofReads [] false) hattach hopen).2 fun f hf => by
    obtain rfl : Forwarder.ended = f := Option.some.inj (hended.symm.trans hf)
    rfl
  exact ⟨rfl, hopen, hgone.2, hloop.trans rfl, hrelayed⟩

end Warden.Service
