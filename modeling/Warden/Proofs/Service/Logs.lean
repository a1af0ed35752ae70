import Warden.Proofs.Diagnostics.Growth
import Warden.Proofs.Service.Entries
import Warden.Proofs.Supervisor

/-!
The two parts of a log.

In a sink that keeps every entry the log of a run has two parts. The loop writes about starts,
stops and exits that fail; the forwarder writes what the agent's stream holds. Neither part depends
on the other: the loop's entries are those of its trace, whatever is relayed in between
(`Run.run_loop`), and the forwarder's are those of the stream alone, whatever the loop does in
between (`Run.run_stream`).
-/

namespace Warden.Log

/-- Whether the entry is one of a forwarder; the others are those of a loop. -/
def Entry.isStreamed (e : Entry) : Bool :=
  match e.category with
  | .relayed | .forwarder => true
  | .startFailure | .stopFailure => false

def ofLoop (es : List Entry) : List Entry := es.filter (!·.isStreamed)

def ofStream (es : List Entry) : List Entry := es.filter (·.isStreamed)

@[simp] lemma ofLoop_append (es fs : List Entry) : ofLoop (es ++ fs) = ofLoop es ++ ofLoop fs :=
  List.filter_append ..

@[simp] lemma ofStream_append (es fs : List Entry) :
    ofStream (es ++ fs) = ofStream es ++ ofStream fs :=
  List.filter_append ..

lemma ofLoop_eq_self {es : List Entry} (h : ∀ e ∈ es, e.isStreamed = false) : ofLoop es = es :=
  List.filter_eq_self.mpr fun e he => by rw [h e he]; rfl

lemma ofStream_eq_nil {es : List Entry} (h : ∀ e ∈ es, e.isStreamed = false) : ofStream es = [] :=
  List.filter_eq_nil_iff.mpr fun e he => by rw [h e he]; simp

/-- A sink that keeps every entry as long as its state is `ok`; `view` is what it holds. -/
structure Sink.Lossless {σ : Type} (k : Sink σ) (view : σ → List Entry) (ok : σ → Prop) :
    Prop where
  view : ∀ s e, ok s → view (k.append s e).1 = view s ++ [e]
  ok : ∀ s e, ok s → ok (k.append s e).1

lemma Memory.lossless :
    sink.Lossless (fun m => m.entries.toList) (fun m => m.capacity = none) where
  view m e h := by simp [sink, append, isFull, h]
  ok m e h := by simp [sink, append, isFull, h]

variable {σ : Type} {k : Sink σ} {view : σ → List Entry} {ok : σ → Prop}

lemma Sink.Lossless.ok_appendAll (hk : k.Lossless view ok) {s : σ} (hs : ok s) (es : List Entry) :
    ok (k.appendAll s es).1 := by
  induction es generalizing s with
  | nil => exact hs
  | cons e es ih => exact ih (hk.ok s e hs)

lemma Sink.Lossless.appendAll (hk : k.Lossless view ok) {s : σ} (hs : ok s) (es : List Entry) :
    view (k.appendAll s es).1 = view s ++ es := by
  induction es generalizing s with
  | nil => exact (List.append_nil _).symm
  | cons e es ih =>
    have hrest : view (k.appendAll s (e :: es)).1 =
        view (k.appendAll (k.append s e).1 es).1 := rfl
    rw [hrest, ih (hk.ok s e hs), hk.view s e hs, List.append_assoc, List.singleton_append]

end Warden.Log

namespace Warden.Diagnostics

open Log

lemma Item.isStreamed_entry (i : Item) : i.entry.isStreamed = true := by
  cases i <;> rfl

lemma ofLoop_items (is : List Item) : ofLoop (is.map Item.entry) = [] := by
  refine List.filter_eq_nil_iff.mpr fun e he => ?_
  obtain ⟨i, -, rfl⟩ := List.mem_map.mp he
  rw [i.isStreamed_entry]
  simp

lemma ofLoop_relayed (f : Forwarder) (m : Attached.Move) : ofLoop (f.relayed m) = [] := by
  cases m with
  | relay => exact ofLoop_items _
  | _ => rfl

lemma ofStream_items (is : List Item) : ofStream (is.map Item.entry) = is.map Item.entry := by
  refine List.filter_eq_self.mpr fun e he => ?_
  obtain ⟨i, -, rfl⟩ := List.mem_map.mp he
  exact i.isStreamed_entry

/-- A relay that runs alone adds the items up to the first final one. -/
lemma relay_view {σ : Type} {k : Sink σ} {view : σ → List Entry} {ok : σ → Prop}
    (hk : k.Lossless view ok) {s : σ} (hs : ok s) (r : Reader) :
    view (relay k s r).sink = view s ++ (upToFinal r.items.1).map Item.entry := by
  have hsink : (relay k s r).sink =
      (relayItems k (s, #[]) (Forwarder.reading r).settle.1).1 := rfl
  rw [hsink, relayItems_sink, settle_items]
  exact hk.appendAll hs _

end Warden.Diagnostics

namespace Warden

open Agent Log Diagnostics

variable {σ : Type}

namespace Supervisor

def forwarder? (s : Supervisor σ) : Option Forwarder := s.attached.map (·.forwarder)

lemma start_sink (s : Supervisor σ) (w : Surroundings) : (s.start w).supervisor.sink = s.sink := by
  rcases hs : s.attached with _ | a
  · have hattempt := start_attempted hs w
    generalize s.start w = c at hattempt ⊢
    cases hattempt <;> rfl
  · rw [start_attached hs]

lemma move_of_no_forwarder (k : Sink σ) {s : Supervisor σ} (h : s.forwarder? = none)
    (m : Attached.Move) : s.move k m = (s, none) :=
  move_of_none k (Option.map_eq_none_iff.mp h) m

/-- What a move makes of the forwarder, and what the sink gets from it. -/
lemma move_forwarder (k : Sink σ) {s : Supervisor σ} {f : Forwarder} (h : s.forwarder? = some f)
    (m : Attached.Move) : (s.move k m).1.forwarder? = some (f.move m) ∧
      (s.move k m).1.sink = (k.appendAll s.sink (f.relayed m)).1 := by
  obtain ⟨b, hb, rfl⟩ := Option.map_eq_some_iff.mp h
  obtain ⟨c, hmoves, hmove⟩ := move_of_some k hb m
  rw [hmove]
  exact ⟨congrArg some hmoves.forwarder, rfl⟩

end Supervisor

end Warden

namespace Warden.Service

open Agent Log Diagnostics

variable {σ : Type} {k : Sink σ} {view : σ → List Entry} {ok : σ → Prop}

/-! ### The loop's effects in the log -/

lemma performAll_view (hk : k.Lossless view ok) {s : σ} (hs : ok s) (es : List Effect) :
    ok (performAll k s es).1 ∧ view (performAll k s es).1 = view s ++ entries es := by
  rw [performAll_attempts]
  exact ⟨hk.ok_appendAll hs _, hk.appendAll hs _⟩

/-- The entry of an exit, if it makes one; `stopped` says whether a request to stop has
succeeded. -/
def exitEntry (stopped : Bool) : Except Fault Exit → Option Entry
  | .error f => some ⟨.stopFailure, .error, f.text⟩
  | .ok x => if x.success || stopped then none else some (Loop.crash x)

lemma entries_farewell (stopping : Bool) (result : Except Fault Exit) :
    entries (Loop.farewell stopping result) = (exitEntry stopping result).toList := by
  rcases result with f | x
  · rfl
  · rcases hx : x.success with _ | _
    · rw [Loop.farewell_failure hx, exitEntry, hx]
      cases stopping <;> rfl
    · simp only [Loop.farewell, exitEntry, hx, Bool.true_or, if_true]
      rfl

lemma isStreamed_exitEntry {stopped : Bool} {result : Except Fault Exit} {e : Entry}
    (h : exitEntry stopped result = some e) : e.isStreamed = false := by
  rcases result with f | x
  · obtain rfl : _ = e := Option.some.inj h
    rfl
  · rcases hquiet : x.success || stopped with _ | _
    · rw [exitEntry, hquiet] at h
      obtain rfl : _ = e := Option.some.inj h
      rfl
    · rw [exitEntry, hquiet] at h
      cases h

/-- The loop never writes as a forwarder does. -/
lemma Loop.Course.isStreamed_step (c : Course) (i : Input) :
    ∀ e ∈ entries (c.step i).2, e.isStreamed = false := by
  have hcomplaint (pid : Nat) :
      ∀ e ∈ ((i.stopError? pid).map complaint).toList, e.isStreamed = false := by
    rcases i.stopError? pid with _ | e <;> simp [complaint, Entry.isStreamed]
  have hfarewell (stopping : Bool) : ∀ e ∈ i.farewell stopping, e.isStreamed = false := by
    intro e he
    rcases i with ⟨q | result, x⟩ | _ | r
    · cases he
    · rw [Input.farewell, entries_farewell] at he
      exact isStreamed_exitEntry (Option.mem_toList.mp he)
    · cases he
    · cases he
  intro e he
  rcases htake : c.takes i with _ | _
  · rw [step_of_not_takes htake] at he
    cases he
  · rcases c with l | o
    · have hturn := step_turn htake
      change e ∈ entries (l.step i).2 at he
      rcases hc : (l.step i).1 with l' | o <;> rw [hc] at hturn
      · rw [hturn.next_entries.1] at he
        exact hcomplaint _ e he
      · rw [hturn.last_entries.1] at he
        exact (List.mem_append.mp he).elim (hcomplaint _ e) (hfarewell _ e)
    · cases htake

/-! ### One act -/

/-- The act concerns the agent's stream. -/
def Act.isStream : Act → Bool
  | .deliver _ | .close | .relay => true
  | _ => false

/-- The move of the agent that an act is, if it is one. -/
def Act.move? : Act → Option Attached.Move
  | .deliver d => some (.deliver d)
  | .close => some .close
  | .relay => some .relay
  | .exit result => some (.exit result)
  | .lose => some .lose
  | .announce => some (.announce false)
  | .announceLate => some (.announce true)
  | _ => none

/-- The act that is the move. -/
def Act.ofMove : Attached.Move → Act
  | .deliver d => .deliver d
  | .close => .close
  | .relay => .relay
  | .exit result => .exit result
  | .lose => .lose
  | .announce false => .announce
  | .announce true => .announceLate

lemma Act.eq_ofMove {a : Act} {m : Attached.Move} (h : a.move? = some m) : a = .ofMove m := by
  cases a with
  | deliver | close | relay | exit | lose | announce | announceLate =>
    obtain rfl := Option.some.inj h
    rfl
  | _ => cases h

/-- Only a move that concerns the stream concerns the forwarder. -/
lemma Act.move_of_not_isStream {a : Act} (h : a.isStream = false) {m : Attached.Move}
    (hm : a.move? = some m) (f : Forwarder) : f.move m = f ∧ f.relayed m = [] := by
  cases a with
  | deliver | close | relay => cases h
  | exit | lose | announce | announceLate =>
    obtain rfl := Option.some.inj hm
    exact ⟨rfl, rfl⟩
  | _ => cases hm

namespace Run

lemma post_eq (r : Run σ) (e : Event) :
    (r.post e).supervisor = r.supervisor ∧ (r.post e).trace = r.trace := by
  unfold post
  split <;> exact ⟨rfl, rfl⟩

lemma step_move (k : Sink σ) {r : Run σ} {a : Act} {m : Attached.Move} (h : a.move? = some m) :
    (step k r a).supervisor = (r.supervisor.move k m).1 ∧ (step k r a).trace = r.trace := by
  have hannounce (late : Bool) :
      (r.announce late).supervisor = (r.supervisor.announce late).1 ∧
        (r.announce late).trace = r.trace := by
    obtain hsame | ⟨b, result, -, -, -, htell⟩ := r.supervisor.announce_cases late
    · simp only [announce, hsame, and_self]
    · simp only [announce, htell]
      exact post_eq _ _
  cases a with
  | deliver | close | relay | exit | lose =>
    obtain rfl := Option.some.inj h
    exact ⟨rfl, rfl⟩
  | announce | announceLate =>
    obtain rfl := Option.some.inj h
    exact hannounce _
  | _ => cases h

/-- `r'` has more entries than `r` at most in the loop's part, and in its trace the same. -/
structure Writes (view : σ → List Entry) (r r' : Run σ) : Prop where
  loop : ∃ es, ofLoop (view r'.supervisor.sink) = ofLoop (view r.supervisor.sink) ++ es ∧
    entries r'.trace = entries r.trace ++ es
  stream : ofStream (view r'.supervisor.sink) = ofStream (view r.supervisor.sink)
  forwarder : r'.supervisor.forwarder? = r.supervisor.forwarder?

/-- `r'` has the entries `es` more than `r`, the loop's own, and in its trace the same. -/
structure Adds (view : σ → List Entry) (r r' : Run σ) (es : List Entry) : Prop where
  view : view r'.supervisor.sink = view r.supervisor.sink ++ es
  trace : entries r'.trace = entries r.trace ++ es
  own : ∀ e ∈ es, e.isStreamed = false
  forwarder : r'.supervisor.forwarder? = r.supervisor.forwarder?

lemma Adds.of_eq {r r' : Run σ} (hs : r'.supervisor.sink = r.supervisor.sink)
    (ht : r'.trace = r.trace) (hf : r'.supervisor.forwarder? = r.supervisor.forwarder?) :
    r.Adds view r' [] where
  view := by rw [hs, List.append_nil]
  trace := by rw [ht, List.append_nil]
  own _ he := absurd he List.not_mem_nil
  forwarder := hf

lemma Adds.trans {r r' r'' : Run σ} {es fs : List Entry} (h : r.Adds view r' es)
    (h' : r'.Adds view r'' fs) : r.Adds view r'' (es ++ fs) where
  view := by rw [h'.view, h.view, List.append_assoc]
  trace := by rw [h'.trace, h.trace, List.append_assoc]
  own e he := (List.mem_append.mp he).elim (h.own e) (h'.own e)
  forwarder := h'.forwarder.trans h.forwarder

lemma Adds.writes {r r' : Run σ} {es : List Entry} (h : r.Adds view r' es) :
    r.Writes view r' where
  loop := ⟨es, by rw [h.view, ofLoop_append, ofLoop_eq_self h.own], h.trace⟩
  stream := by rw [h.view, ofStream_append, ofStream_eq_nil h.own, List.append_nil]
  forwarder := h.forwarder

lemma carryOut_adds (hk : k.Lossless view ok) {r : Run σ} (hok : ok r.supervisor.sink)
    (step : Loop.Course × List Effect) (hown : ∀ e ∈ entries step.2, e.isStreamed = false) :
    ok (r.carryOut k step).supervisor.sink ∧
      r.Adds view (r.carryOut k step) (entries step.2) := by
  obtain ⟨hok', hview⟩ := performAll_view hk hok step.2
  have htrace : (r.carryOut k step).trace =
      r.trace ++ (performAll k r.supervisor.sink step.2).2 := rfl
  refine ⟨hok', hview, ?_, hown, rfl⟩
  rw [htrace, entries_append, ← entries_deeds (performAll _ _ _).2, deeds_performAll,
    entries_deeds]

lemma input_adds (hk : k.Lossless view ok) {r : Run σ} (hok : ok r.supervisor.sink)
    (i : Loop.Input) : ok (r.input k i).supervisor.sink ∧
      r.Adds view (r.input k i) (entries (r.course.step i).2) :=
  carryOut_adds hk hok _ (r.course.isStreamed_step i)

/-- An act that is no move adds at most what the loop writes. -/
lemma still_adds (hk : k.Lossless view ok) {r : Run σ} (hok : ok r.supervisor.sink) {a : Act}
    (ha : a.move? = none) :
    ok (step k r a).supervisor.sink ∧ ∃ es, r.Adds view (step k r a) es := by
  have hquiet {r' : Run σ} (hs : r'.supervisor = r.supervisor) (ht : r'.trace = r.trace) :
      ok r'.supervisor.sink ∧ ∃ es, r.Adds view r' es := by
    rw [hs]
    exact ⟨hok, [], .of_eq (congrArg _ hs) ht (congrArg _ hs)⟩
  have hinput (i : Loop.Input) :
      ok (r.input k i).supervisor.sink ∧ ∃ es, r.Adds view (r.input k i) es := by
    obtain ⟨hok', h⟩ := input_adds hk hok i
    exact ⟨hok', _, h⟩
  cases a with
  | request q =>
    simp only [step]
    split
    · exact hquiet (r.post_eq _).1 (r.post_eq _).2
    · exact hquiet rfl rfl
  | hangUp => exact hquiet rfl rfl
  | deafen => exact hquiet rfl rfl
  | receive =>
    obtain ⟨e, es, -, -, -, h⟩ | ⟨-, -, -, -, h⟩ | ⟨-, -, h⟩ := r.receive_cases k
    · obtain ⟨hok', hadds⟩ := input_adds hk (r := { r with inbox := es }) hok
        (.event e r.supervisor.exit?)
      rw [step, h]
      exact ⟨hok', _, hadds.view, hadds.trace, hadds.own, hadds.forwarder⟩
    · rw [step, h]
      exact hinput .disconnected
    · rw [step, h]
      exact hquiet rfl rfl
  | look | interrupted | killed => exact hinput _
  | _ => cases ha

/-- A move adds what is relayed. -/
lemma move_view (hk : k.Lossless view ok) {r : Run σ} (hok : ok r.supervisor.sink) {f : Forwarder}
    (hf : r.supervisor.forwarder? = some f) {a : Act} {m : Attached.Move}
    (ha : a.move? = some m) :
    ok (step k r a).supervisor.sink ∧
      view (step k r a).supervisor.sink = view r.supervisor.sink ++ f.relayed m ∧
      (step k r a).supervisor.forwarder? = some (f.move m) := by
  obtain ⟨hf', hsink⟩ := Supervisor.move_forwarder k hf m
  rw [(step_move k ha).1, hsink]
  exact ⟨hk.ok_appendAll hok _, hk.appendAll hok _, hf'⟩

/-- Apart from the agent's stream, only the loop writes. -/
lemma step_adds (hk : k.Lossless view ok) {r : Run σ} (hok : ok r.supervisor.sink) {a : Act}
    (ha : a.isStream = false) :
    ok (step k r a).supervisor.sink ∧ ∃ es, r.Adds view (step k r a) es := by
  rcases hm : a.move? with _ | m
  · exact still_adds hk hok hm
  · obtain ⟨hsup, htrace⟩ := step_move k (r := r) hm
    rcases hf : r.supervisor.forwarder? with _ | f
    · rw [Supervisor.move_of_no_forwarder k hf] at hsup
      rw [hsup]
      exact ⟨hok, [], .of_eq (congrArg _ hsup) htrace (congrArg _ hsup)⟩
    · obtain ⟨hsame, hnone⟩ := Act.move_of_not_isStream ha hm f
      obtain ⟨hok', hview, hf'⟩ := move_view hk hok hf hm
      rw [hnone] at hview
      rw [hsame] at hf'
      refine ⟨hok', [], hview, ?_, fun e he => absurd he List.not_mem_nil, hf'.trans hf.symm⟩
      rw [htrace, List.append_nil]

lemma step_writes (hk : k.Lossless view ok) {r : Run σ} (hok : ok r.supervisor.sink) {a : Act}
    (ha : a.isStream = false) :
    ok (step k r a).supervisor.sink ∧ r.Writes view (step k r a) := by
  obtain ⟨hok', es, h⟩ := step_adds hk hok ha
  exact ⟨hok', h.writes⟩

/-! ### The loop's part -/

/-- The loop's entries in the log are those of its trace. -/
lemma step_loop (hk : k.Lossless view ok) {r : Run σ} (hok : ok r.supervisor.sink)
    (a : Act) :
    ok (step k r a).supervisor.sink ∧
      ∃ es, ofLoop (view (step k r a).supervisor.sink) = ofLoop (view r.supervisor.sink) ++ es ∧
        entries (step k r a).trace = entries r.trace ++ es := by
  rcases hm : a.move? with _ | m
  · obtain ⟨hok', es, h⟩ := still_adds hk hok hm
    exact ⟨hok', h.writes.loop⟩
  · obtain ⟨hsup, htrace⟩ := step_move k (r := r) hm
    have hsame : entries (step k r a).trace = entries r.trace ++ [] := by
      rw [htrace, List.append_nil]
    rcases hf : r.supervisor.forwarder? with _ | f
    · rw [Supervisor.move_of_no_forwarder k hf] at hsup
      rw [hsup]
      exact ⟨hok, [], (List.append_nil _).symm, hsame⟩
    · obtain ⟨hok', hview, -⟩ := move_view hk hok hf hm
      refine ⟨hok', [], ?_, hsame⟩
      rw [hview, ofLoop_append, ofLoop_relayed]

lemma run_loop (hk : k.Lossless view ok) {r : Run σ} (hok : ok r.supervisor.sink)
    (as : List Act) :
    ok (run k r as).supervisor.sink ∧
      ∃ es, ofLoop (view (run k r as).supervisor.sink) = ofLoop (view r.supervisor.sink) ++ es ∧
        entries (run k r as).trace = entries r.trace ++ es := by
  induction as generalizing r with
  | nil => exact ⟨hok, [], (List.append_nil _).symm, (List.append_nil _).symm⟩
  | cons a as ih =>
    obtain ⟨hok₁, es, hlog, htrace⟩ := step_loop hk hok a
    obtain ⟨hok₂, fs, hlog', htrace'⟩ := ih hok₁
    refine ⟨hok₂, es ++ fs, ?_, ?_⟩
    · rw [run_cons, hlog', hlog, List.append_assoc]
    · rw [run_cons, htrace', htrace, List.append_assoc]

/-! ### The stream's part -/

end Run

/-- Nothing is delivered on a stream that is closed. -/
def OnOpen (closed : Bool) : List Act → Prop
  | [] => True
  | .deliver _ :: as => closed = false ∧ OnOpen closed as
  | .close :: as => OnOpen true as
  | _ :: as => OnOpen closed as

def delivered (as : List Act) : List Read :=
  as.filterMap fun
    | .deliver d => some d
    | _ => none

lemma OnOpen.delivered_eq_nil {as : List Act} (h : OnOpen true as) : delivered as = [] := by
  induction as with
  | nil => rfl
  | cons a as ih =>
    cases a with
    | deliver d => exact absurd h.1 (by simp)
    | _ => exact ih h

lemma onOpen_cons {a : Act} (ha : a.isStream = false) (closed : Bool) (as : List Act) :
    OnOpen closed (a :: as) = OnOpen closed as ∧ delivered (a :: as) = delivered as := by
  cases a with
  | deliver | close | relay => cases ha
  | _ => exact ⟨rfl, rfl⟩

namespace Run

/-- What is in the log and what is owed to it are together the same before and after an act. -/
lemma step_stream (hk : k.Lossless view ok) {r : Run σ} (hok : ok r.supervisor.sink)
    {f : Forwarder} (hf : r.supervisor.forwarder? = some f) {a : Act} {as : List Act}
    (hopen : ∀ rd, f = .reading rd → OnOpen rd.closed (a :: as)) :
    ∃ f', (step k r a).supervisor.forwarder? = some f' ∧
      (∀ rd, f' = .reading rd → OnOpen rd.closed as) ∧
      ofStream (view (step k r a).supervisor.sink) ++ (f'.owed (delivered as)).map Item.entry =
        ofStream (view r.supervisor.sink) ++
          (f.owed (delivered (a :: as))).map Item.entry := by
  rcases ha : a.isStream with _ | _
  · obtain ⟨-, h⟩ := step_writes hk hok ha
    refine ⟨f, h.forwarder.trans hf, fun rd hrd => ?_, ?_⟩
    · rw [← (onOpen_cons ha rd.closed as).1]
      exact hopen rd hrd
    · rw [h.stream, (onOpen_cons ha true as).2]
  · cases a with
    | deliver d =>
      obtain ⟨-, -, hf'⟩ := move_view hk hok hf (a := .deliver d) rfl
      refine ⟨f.feed [d], hf', fun rd hrd => ?_, ?_⟩
      · cases f with
        | reading rd' =>
          obtain rfl : rd'.feed [d] = rd := by injection hrd
          exact (hopen rd' rfl).2
        | ended | crashed => cases hrd
      · rw [Forwarder.owed_feed]
        rfl
    | close =>
      obtain ⟨-, -, hf'⟩ := move_view hk hok hf (a := .close) rfl
      refine ⟨f.close, hf', fun rd hrd => ?_, ?_⟩
      · cases f with
        | reading rd' =>
          obtain rfl : rd'.close = rd := by injection hrd
          exact hopen rd' rfl
        | ended | crashed => cases hrd
      · rw [Forwarder.owed_close]
        rfl
    | relay =>
      have hend : ∀ rd, f = .reading rd → rd.closed = true → delivered as = [] := by
        intro rd hrd hc
        have has : OnOpen rd.closed as := hopen rd hrd
        rw [hc] at has
        exact has.delivered_eq_nil
      obtain ⟨howed, hclosed⟩ := Forwarder.turn_owed hend
      obtain ⟨-, hview, hf'⟩ := move_view hk hok hf (a := .relay) rfl
      refine ⟨f.turn.2, hf', fun rd' hrd' => ?_, ?_⟩
      · obtain ⟨rd, hrd, hsame⟩ := hclosed rd' hrd'
        rw [hsame]
        exact hopen rd hrd
      · have hdelivered : delivered (.relay :: as) = delivered as := rfl
        have hrelayed : f.relayed .relay = f.turn.1.toList.map Item.entry := rfl
        rw [hview, hrelayed, hdelivered, howed, ofStream_append, ofStream_items, List.map_append,
          List.append_assoc]
    | _ => cases ha

lemma run_stream (hk : k.Lossless view ok) {r : Run σ} (hok : ok r.supervisor.sink)
    {f : Forwarder} (hf : r.supervisor.forwarder? = some f) (as : List Act)
    (hopen : ∀ rd, f = .reading rd → OnOpen rd.closed as) :
    ∃ f', (run k r as).supervisor.forwarder? = some f' ∧
      ofStream (view (run k r as).supervisor.sink) ++ (f'.owed []).map Item.entry =
        ofStream (view r.supervisor.sink) ++ (f.owed (delivered as)).map Item.entry := by
  induction as generalizing r f with
  | nil => exact ⟨f, hf, rfl⟩
  | cons a as ih =>
    obtain ⟨f₁, hf₁, hopen₁, hsame⟩ := step_stream hk hok hf hopen
    obtain ⟨f₂, hf₂, hrest⟩ := ih (step_loop hk hok a).1 hf₁ hopen₁
    exact ⟨f₂, hf₂, hrest.trans hsame⟩

end Run

/-! ### The start -/

/-- A fresh run has written about its start, and left the forwarder alone. -/
lemma Run.start_writes (hk : k.Lossless view ok) {s : Supervisor σ} (hs : ok s.sink)
    (w : Surroundings) :
    let r₀ := (Run.start k s w).1
    ok r₀.supervisor.sink ∧
      ofLoop (view r₀.supervisor.sink) = ofLoop (view s.sink) ++ entries r₀.trace ∧
      ofStream (view r₀.supervisor.sink) = ofStream (view s.sink) ∧
      r₀.supervisor.forwarder? = (s.start w).supervisor.forwarder? := by
  have hsink : (s.start w).supervisor.sink = s.sink := s.start_sink w
  have hown : ∀ e ∈ entries (startEffects s (s.start w).result), e.isStreamed = false := by
    rcases (s.start w).result with e | pid
    · exact List.forall_mem_singleton.mpr rfl
    · exact fun e he => absurd he List.not_mem_nil
  obtain ⟨hok, hadds⟩ := carryOut_adds hk
    (r := ⟨(s.start w).supervisor, [], true, true, startCourse s (s.start w).result, [], []⟩)
    (hsink ▸ hs) (startCourse s (s.start w).result, startEffects s (s.start w).result) hown
  obtain ⟨⟨es, hlog, htrace⟩, hstream, hfwd⟩ := hadds.writes
  rw [hsink] at hlog hstream
  have hes : es = entries (Run.start k s w).1.trace := htrace.symm
  exact ⟨hok, hes ▸ hlog, hstream, hfwd⟩

end Warden.Service
