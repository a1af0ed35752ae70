import Mathlib.Data.List.Nodup
import Mathlib.Data.List.Perm.Basic
import Mathlib.Tactic.Common
import Warden.Options.Parse

/-!
Where the value of an option comes from.

An option that is given has the value it is given, wherever it stands among the others and however
it is spelled. One that is not given has the value of its variable, if that is set, and its default
otherwise. Arguments are read from left to right and variables are read after them, but nothing but
this map from options to values is left of the order: the values are acceptable or not each by
itself.
-/

namespace Warden.Options

/-! ### Options with their values -/

/-- An option with its value, which stands behind an equals sign or in an argument of its own. -/
structure Spelled where
  name : Name
  value : String
  joined : Bool
  /-- Of the values in arguments of their own, only a single dash starts with a dash. -/
  fits : joined = false → value = "-" ∨ value.toList.head? ≠ some '-'

def Spelled.words (x : Spelled) : List String :=
  if x.joined then ["--" ++ x.name.long ++ "=" ++ x.value] else ["--" ++ x.name.long, x.value]

def words (gs : List Spelled) : List String := gs.flatMap Spelled.words

def values (gs : List Spelled) : Given := gs.map fun x => (x.name, x.value)

/-- The value of an option's variable. -/
def inherited? (env : Env) (n : Name) : Option String := n.envVar?.bind env

/-- The value of an option: as it is given, else that of its variable, else its default. -/
def effective? (env : Env) (g : Given) (n : Name) : Option String :=
  (g.get? n).or ((inherited? env n).or n.default?)

/-- Whether an option takes a value. -/
def Accepts : Name → String → Prop
  | .logLevel, v => ∃ l, Log.Verbosity.parse v = .ok l
  | .sink, v => ∃ k, SinkKind.parse? v = some k
  | .agentDir, v => v ≠ ""
  | _, _ => True

/-- Options that have the given values and leave the agent no arguments. -/
structure Reads (value : Name → Option String) (o : Options) : Prop where
  verbosity : o.verbosity.map .ok = (value .logLevel).map Log.Verbosity.parse
  service : some o.service = value .serviceName
  agent : o.agent = value .agent
  directory : o.directory = value .agentDir
  stopTimeout : some o.stopTimeout = value .stopTimeout
  pollInterval : some o.pollInterval = value .pollInterval
  sink : some o.sink = (value .sink).bind SinkKind.parse?
  arguments : o.arguments = []

/-! ### How an option is recognised -/

lemma Name.mem_all (n : Name) : n ∈ Name.all := by
  cases n <;> decide

lemma Name.nodup_all : Name.all.Nodup := by
  decide

lemma Name.equals_notMem_long (n : Name) : '=' ∉ n.long.toList := by
  cases n <;> decide

lemma long_long (n : Name) (v : Option String) : long n.long v = .option n v := by
  cases n <;> rfl

lemma ofString_long (n : Name) : Argument.ofString ("--" ++ n.long) = .option n none := by
  cases n <;> rfl

/-- The first equals sign ends the name, so the value may hold more of them. -/
lemma ofString_equals {a : String} {cs vs : List Char}
    (ha : a.toList = '-' :: '-' :: (cs ++ '=' :: vs)) (hcs : '=' ∉ cs) :
    Argument.ofString a = long (String.ofList cs) (some (String.ofList vs)) := by
  have hname : ∀ c ∈ cs, (c != '=') = true := by
    intro c hc
    simpa using ne_of_mem_of_not_mem hc hcs
  have hdrop : (cs ++ '=' :: vs).dropWhile (· != '=') = '=' :: vs := by
    rw [List.dropWhile_append_of_pos hname]
    rfl
  have htake : (cs ++ '=' :: vs).takeWhile (· != '=') = cs := by
    rw [List.takeWhile_append_of_pos hname]
    simp
  unfold Argument.ofString
  rw [ha]
  cases cs with
  | nil => rfl
  | cons c cs =>
    rw [List.cons_append] at hdrop htake ⊢
    simp only [hdrop, htake]

lemma ofString_joined (n : Name) (v : String) :
    Argument.ofString ("--" ++ n.long ++ "=" ++ v) = .option n (some v) := by
  have ha : ("--" ++ n.long ++ "=" ++ v).toList =
      '-' :: '-' :: (n.long.toList ++ '=' :: v.toList) := by
    simp
  rw [ofString_equals ha n.equals_notMem_long, String.ofList_toList, String.ofList_toList]
  exact long_long n (some v)

lemma ofString_value {v : String} (h : v = "-" ∨ v.toList.head? ≠ some '-') :
    Argument.ofString v = .value v := by
  obtain rfl | h := h
  · rfl
  · unfold Argument.ofString
    split <;> simp_all

/-! ### Acceptance -/

lemma check_ok_iff (n : Name) (v : String) : check n v = .ok () ↔ Accepts n v := by
  cases n with
  | logLevel =>
    simp only [check, Accepts]
    cases Log.Verbosity.parse v <;> simp
  | sink =>
    simp only [check, Accepts]
    cases SinkKind.parse? v <;> simp
  | agentDir =>
    simp only [check, Accepts]
    split <;> simp_all
  | _ => simp [check, Accepts]

lemma Accepts.default {n : Name} {v : String} (h : n.default? = some v) : Accepts n v := by
  cases n with
  | sink =>
    obtain rfl : SinkKind.system.name = v := by simpa [Name.default?] using h
    exact ⟨.system, rfl⟩
  | logLevel | agentDir => simp [Name.default?] at h
  | _ => trivial

/-- The options that have a value. -/
def Given.names (g : Given) : List Name := g.map Prod.fst

lemma Given.get?_eq_none_iff (g : Given) (n : Name) : g.get? n = none ↔ n ∉ g.names := by
  simp only [Given.get?, Given.names, List.lookup_eq_none_iff, List.mem_map, not_exists, not_and]
  grind

lemma Given.get?_eq_some_iff {g : Given} (hg : g.names.Nodup) (n : Name) (v : String) :
    g.get? n = some v ↔ (n, v) ∈ g := by
  induction g with
  | nil => simp [Given.get?]
  | cons q g ih =>
    obtain ⟨m, u⟩ := q
    obtain ⟨hm, hg⟩ := List.nodup_cons.mp hg
    have ih : g.lookup n = some v ↔ (n, v) ∈ g := ih hg
    rw [Given.get?, List.lookup_cons, List.mem_cons, Prod.mk.injEq]
    by_cases hn : n = m
    · subst hn
      have hv : (n, v) ∉ g := fun hmem => hm (List.mem_map.mpr ⟨(n, v), hmem, rfl⟩)
      simp [hv, eq_comm]
    · have hbeq : (n == m) = false := beq_false_of_ne hn
      simp only [hbeq, ih, hn, false_and, false_or]

lemma accept_ok_iff {g : Given} {n : Name} (hn : n ∉ g.names) (v : String) (g' : Given) :
    accept g n v = .ok g' ↔ Accepts n v ∧ g' = g ++ [(n, v)] := by
  rw [accept, (g.get?_eq_none_iff n).mpr hn, ← check_ok_iff]
  cases check n v with
  | error e => simp
  | ok u => simp [eq_comm]

/-- Accepts options one after another. -/
def acceptAll (g ps : Given) : Except UsageError Given := ps.foldlM (fun g q => accept g q.1 q.2) g

lemma acceptAll_cons (g : Given) (n : Name) (v : String) (ps : Given) :
    acceptAll g ((n, v) :: ps) = (accept g n v).bind fun g => acceptAll g ps :=
  rfl

/-- Options that differ in their names are accepted each by itself. -/
lemma acceptAll_ok_iff {g ps : Given} (h : (g ++ ps).names.Nodup) (g' : Given) :
    acceptAll g ps = .ok g' ↔ (∀ q ∈ ps, Accepts q.1 q.2) ∧ g' = g ++ ps := by
  induction ps generalizing g with
  | nil =>
    have hnil : acceptAll g [] = .ok g := rfl
    simp [hnil, eq_comm]
  | cons q ps ih =>
    obtain ⟨n, v⟩ := q
    have hn : n ∉ g.names := by
      simp only [Given.names, List.map_append, List.map_cons] at h
      exact fun hmem => (List.disjoint_of_nodup_append h) hmem List.mem_cons_self
    -- what is accepted moves from the options ahead to those behind
    have hsplit : g ++ (n, v) :: ps = g ++ [(n, v)] ++ ps := by simp
    have ih := ih (hsplit ▸ h)
    have haccept := accept_ok_iff hn v
    rw [acceptAll_cons, hsplit, List.forall_mem_cons]
    cases hg : accept g n v with
    | error e =>
      have hv : ¬ Accepts n v := fun hv => by
        rw [(haccept _).mpr ⟨hv, rfl⟩] at hg
        cases hg
      simp [Except.bind, hv]
    | ok g₁ =>
      obtain ⟨hv, rfl⟩ := (haccept g₁).mp hg
      simp [Except.bind, ih, hv]

/-! ### Arguments, then variables -/

lemma scan_joined (env : Env) (g : Given) (p : Pending) (n : Name) (v : String) (as : List String) :
    scan env g p (("--" ++ n.long ++ "=" ++ v) :: as) =
      (settle g p).bind fun g => (accept g n v).bind fun g => scan env g none as := by
  rw [scan, ofString_joined]
  cases settle g p with
  | error e => rfl
  | ok g =>
    simp only [Except.bind]
    cases accept g n v <;> rfl

/-- A value in an argument of its own stays behind; what comes next judges it. -/
lemma scan_apart (env : Env) (g : Given) (p : Pending) (n : Name) {v : String}
    (hv : v = "-" ∨ v.toList.head? ≠ some '-') (as : List String) :
    scan env g p (("--" ++ n.long) :: v :: as) =
      (settle g p).bind fun g => scan env g (some (n, some v)) as := by
  rw [scan, ofString_long]
  cases settle g p with
  | error e => rfl
  | ok g =>
    simp only [Except.bind]
    rw [scan, ofString_value hv]

/-- Arguments that spell options are read as the options that they spell. -/
lemma scan_words (env : Env) (g : Given) (p : Pending) (gs : List Spelled) :
    scan env g p (words gs) =
      (settle g p).bind fun g => (acceptAll g (values gs)).map (·, []) := by
  induction gs generalizing g p with
  | nil =>
    change (settle g p).map (·, []) = _
    cases settle g p <;> rfl
  | cons x gs ih =>
    obtain ⟨n, v, joined, fits⟩ := x
    have hvalues (g : Given) : acceptAll g (values (⟨n, v, joined, fits⟩ :: gs)) =
        (accept g n v).bind fun g => acceptAll g (values gs) := rfl
    cases joined with
    | true =>
      have hwords : words (⟨n, v, true, fits⟩ :: gs) =
          ("--" ++ n.long ++ "=" ++ v) :: words gs := rfl
      rw [hwords, scan_joined]
      congr 1
      funext g
      rw [hvalues]
      cases accept g n v with
      | error e => rfl
      | ok g => exact ih g none
    | false =>
      have hwords : words (⟨n, v, false, fits⟩ :: gs) = ("--" ++ n.long) :: v :: words gs := rfl
      rw [hwords, scan_apart env g p n (fits rfl)]
      congr 1
      funext g
      rw [hvalues, ih, settle]
      cases accept g n v <;> rfl

/-- What an option that is not given has from its variable. -/
def addition? (env : Env) (g : Given) (n : Name) : Option (Name × String) :=
  match g.get? n with
  | none => (inherited? env n).map (n, ·)
  | some _ => none

lemma addition?_eq_some_iff (env : Env) (g : Given) (m n : Name) (v : String) :
    addition? env g m = some (n, v) ↔ m = n ∧ g.get? n = none ∧ inherited? env n = some v := by
  unfold addition?
  cases hg : g.get? m with
  | none =>
    simp only [Option.map_eq_some_iff, Prod.mk.injEq]
    grind
  | some u => grind

/-- What the variables of some options add to the given ones. -/
def filled (env : Env) (g : Given) (ns : List Name) : Given := ns.filterMap (addition? env g)

lemma filled_append (env : Env) (g : Given) {n : Name} {ns : List Name} (hn : n ∉ ns)
    (v : String) : filled env (g ++ [(n, v)]) ns = filled env g ns := by
  refine List.filterMap_congr fun m hm => ?_
  have hmn : (m == n) = false := beq_false_of_ne (ne_of_mem_of_not_mem hm hn)
  have hget : Given.get? (g ++ [(n, v)]) m = g.get? m := by
    simp [Given.get?, List.lookup_append, List.lookup_cons, hmn]
  rw [addition?, addition?, hget]

/-- The variables are read like options that stand behind the given ones. -/
lemma fill_eq (env : Env) (g : Given) {ns : List Name} (h : ns.Nodup) :
    fill env g ns = acceptAll g (filled env g ns) := by
  induction ns generalizing g with
  | nil => rfl
  | cons n ns ih =>
    obtain ⟨hn, hns⟩ := List.nodup_cons.mp h
    rw [fill, ← inherited?]
    -- an option adds something only if it is not given and its variable is set
    cases hg : g.get? n with
    | some u =>
      have hfilled : filled env g (n :: ns) = filled env g ns := by
        simp [filled, addition?, hg]
      rw [hfilled]
      exact ih g hns
    | none =>
      cases hv : inherited? env n with
      | none =>
        have hfilled : filled env g (n :: ns) = filled env g ns := by
          simp [filled, addition?, hg, hv]
        rw [hfilled]
        exact ih g hns
      | some v =>
        have hfilled : filled env g (n :: ns) = (n, v) :: filled env g ns := by
          simp [filled, addition?, hg, hv]
        rw [hfilled, acceptAll_cons]
        cases haccept : accept g n v with
        | error e => simp only [haccept, Except.bind]
        | ok g' =>
          obtain ⟨-, rfl⟩ := (accept_ok_iff ((g.get?_eq_none_iff n).mp hg) v g').mp haccept
          -- no later option looks at `n`, so it does not matter to them that it is there now
          simp only [haccept, Except.bind]
          rw [ih _ hns, filled_append env g hn]

lemma mem_filled (env : Env) (g : Given) (n : Name) (v : String) :
    (n, v) ∈ filled env g Name.all ↔ g.get? n = none ∧ inherited? env n = some v := by
  rw [filled, List.mem_filterMap]
  constructor
  · rintro ⟨m, -, h⟩
    exact ((addition?_eq_some_iff env g m n v).mp h).2
  · intro h
    exact ⟨n, n.mem_all, (addition?_eq_some_iff env g n n v).mpr ⟨rfl, h⟩⟩

lemma filled_names_nodup (env : Env) (g : Given) : (filled env g Name.all).names.Nodup := by
  rw [Given.names, filled, List.map_filterMap]
  refine Name.nodup_all.filterMap fun m m' n hm hm' => ?_
  have hkey : ∀ k, n ∈ (addition? env g k).map Prod.fst → k = n := by
    intro k hk
    obtain ⟨⟨n', v⟩, hadd, rfl⟩ := Option.map_eq_some_iff.mp hk
    exact ((addition?_eq_some_iff env g k n' v).mp hadd).1
  exact (hkey m hm).trans (hkey m' hm').symm

/-- The options that are given and those that the environment adds. -/
def collected (env : Env) (g : Given) : Given := g ++ filled env g Name.all

lemma collected_names_nodup (env : Env) {g : Given} (hg : g.names.Nodup) :
    (collected env g).names.Nodup := by
  rw [collected, Given.names, List.map_append]
  refine List.nodup_append'.mpr ⟨hg, filled_names_nodup env g, ?_⟩
  intro n hn hadded
  obtain ⟨⟨m, v⟩, hmem, rfl⟩ := List.mem_map.mp hadded
  exact (g.get?_eq_none_iff m).mp ((mem_filled env g m v).mp hmem).1 hn

lemma collected_get? (env : Env) (g : Given) (n : Name) :
    (collected env g).get? n = (g.get? n).or (inherited? env n) := by
  have hadded : (filled env g Name.all).get? n =
      if g.get? n = none then inherited? env n else none := by
    refine Option.ext fun v => ?_
    rw [Given.get?_eq_some_iff (filled_names_nodup env g), mem_filled]
    split <;> simp_all
  rw [collected, Given.get?, List.lookup_append, ← Given.get?, ← Given.get?, hadded]
  cases g.get? n <;> simp

lemma parse_words (env : Env) {gs : List Spelled} (hgs : (values gs).names.Nodup) :
    parse env (words gs) = (acceptAll [] (collected env (values gs))).map (assemble · []) := by
  have hsplit : acceptAll [] (collected env (values gs)) =
      (acceptAll [] (values gs)).bind fun g => acceptAll g (filled env (values gs) Name.all) :=
    List.foldlM_append
  rw [parse, scan_words, settle, hsplit]
  simp only [Except.bind]
  cases h : acceptAll [] (values gs) with
  | error e => rfl
  | ok g =>
    obtain ⟨-, rfl⟩ := (acceptAll_ok_iff hgs g).mp h
    simp only [Except.map, List.nil_append]
    rw [fill_eq env _ Name.nodup_all]
    cases acceptAll (values gs) (filled env (values gs) Name.all) <;> rfl

/-! ### Effective values -/

lemma effective?_eq (env : Env) (g : Given) (n : Name) :
    effective? env g n = ((collected env g).get? n).or n.default? := by
  rw [collected_get?, effective?, Option.or_assoc]

/-- Every default is acceptable, so only what is given or inherited can be refused. -/
lemma forall_collected_iff (env : Env) {g : Given} (hg : g.names.Nodup) :
    (∀ q ∈ collected env g, Accepts q.1 q.2) ↔ ∀ n v, effective? env g n = some v → Accepts n v := by
  have hmem := Given.get?_eq_some_iff (collected_names_nodup env hg)
  constructor
  · intro h n v hv
    rw [effective?_eq, Option.or_eq_some_iff] at hv
    obtain hv | ⟨-, hv⟩ := hv
    · exact h (n, v) ((hmem n v).mp hv)
    · exact Accepts.default hv
  · rintro h ⟨n, v⟩ hq
    refine h n v ?_
    rw [effective?_eq, (hmem n v).mpr hq, Option.some_or]

lemma parse_words_ok_iff (env : Env) {gs : List Spelled} (hgs : (values gs).names.Nodup)
    (o : Options) :
    parse env (words gs) = .ok o ↔
      (∀ n v, effective? env (values gs) n = some v → Accepts n v) ∧
      assemble (collected env (values gs)) [] = o := by
  have hall : ∀ g, acceptAll [] (collected env (values gs)) = .ok g ↔
      (∀ q ∈ collected env (values gs), Accepts q.1 q.2) ∧ g = collected env (values gs) :=
    acceptAll_ok_iff (collected_names_nodup env hgs)
  rw [parse_words env hgs, ← forall_collected_iff env hgs]
  cases h : acceptAll [] (collected env (values gs)) with
  | error e =>
    refine iff_of_false (fun hmap => by cases hmap) fun ⟨haccepts, _⟩ => ?_
    rw [(hall _).mpr ⟨haccepts, rfl⟩] at h
    cases h
  | ok g =>
    obtain ⟨haccepts, rfl⟩ := (hall g).mp h
    simp only [Except.map, Except.ok.injEq]
    exact (and_iff_right haccepts).symm

lemma assemble_reads (env : Env) (g : Given)
    (h : ∀ n v, effective? env g n = some v → Accepts n v) :
    Reads (effective? env g) (assemble (collected env g) []) := by
  have heff := effective?_eq env g
  have hdefault (n : Name) {d : String} (hd : n.default? = some d) :
      effective? env g n = some (((collected env g).get? n).getD d) := by
    rw [heff, hd]
    cases (collected env g).get? n <;> rfl
  have hgiven (n : Name) (hd : n.default? = none) :
      effective? env g n = (collected env g).get? n := by
    rw [heff, hd, Option.or_none]
  have hverbosity := hgiven .logLevel rfl
  have hsink := hdefault .sink rfl
  refine ⟨?_, (hdefault .serviceName rfl).symm, (hgiven .agent rfl).symm,
    (hgiven .agentDir rfl).symm, (hdefault .stopTimeout rfl).symm,
    (hdefault .pollInterval rfl).symm, ?_, rfl⟩
  · simp only [assemble, hverbosity]
    cases hv : (collected env g).get? .logLevel with
    | none => rfl
    | some v =>
      obtain ⟨l, hl⟩ := h .logLevel v (hverbosity.trans hv)
      simp [hl, Except.toOption]
  · rw [hsink, Option.bind_some]
    obtain ⟨k, hk⟩ := h .sink _ hsink
    simp only [assemble]
    cases hv : (collected env g).get? .sink with
    | none => rfl
    | some v =>
      rw [hv, Option.getD_some] at hk
      simp [hk]

lemma assemble_congr {g g' : Given} (h : ∀ n, g.get? n = g'.get? n) (as : List String) :
    assemble g as = assemble g' as := by
  simp only [assemble, h]

/-- The order of options that differ in their names does not matter. -/
lemma Given.get?_perm {g g' : Given} (h : g.Perm g') (hg : g.names.Nodup) (n : Name) :
    g.get? n = g'.get? n := by
  have hg' : g'.names.Nodup := (h.map Prod.fst).nodup_iff.mp hg
  refine Option.ext fun v => ?_
  rw [get?_eq_some_iff hg, get?_eq_some_iff hg', h.mem_iff]

/-- The variable of an option that is given is not looked at. -/
lemma collected_congr {env env' : Env} (g : Given)
    (h : ∀ n ∉ g.names, inherited? env n = inherited? env' n) :
    collected env g = collected env' g := by
  unfold collected filled
  congr 2
  funext n
  unfold addition?
  cases hg : g.get? n with
  | some u => rfl
  | none => simp only [h n ((g.get?_eq_none_iff n).mp hg)]

/-- **An option has the value it is given, else that of its variable, else its default, and
nothing but these values decides.** The options are read just when each of the values is
acceptable by itself, and are then made of these values; another order or spelling is read alike,
and the variable of an option that is given, whatever is in it, changes nothing. -/
theorem effective_values_decide (env : Env) (gs : List Spelled)
    (hgs : (gs.map (·.name)).Nodup) :
    let value := effective? env (values gs)
    ((∃ o, parse env (words gs) = .ok o) ↔ ∀ n v, value n = some v → Accepts n v) ∧
    (∀ o, parse env (words gs) = .ok o → Reads value o) ∧
    (∀ gs', (values gs').Perm (values gs) →
      ∀ o, parse env (words gs') = .ok o ↔ parse env (words gs) = .ok o) ∧
    ∀ env' : Env, (∀ n ∉ gs.map (·.name), ∀ x, n.envVar? = some x → env' x = env x) →
      parse env' (words gs) = parse env (words gs) := by
  intro value
  have hnames : (values gs).names = gs.map (·.name) := List.map_map
  have hnodup : (values gs).names.Nodup := hnames ▸ hgs
  have hok := parse_words_ok_iff env hnodup
  refine ⟨⟨?_, fun h => ⟨_, (hok _).mpr ⟨h, rfl⟩⟩⟩, ?_, fun gs' hperm o => ?_, fun env' henv => ?_⟩
  · rintro ⟨o, ho⟩
    exact ((hok o).mp ho).1
  · intro o ho
    obtain ⟨haccepts, rfl⟩ := (hok o).mp ho
    exact assemble_reads env (values gs) haccepts
  · have hnodup' : (values gs').names.Nodup := (hperm.map Prod.fst).nodup_iff.mpr hnodup
    have hget : ∀ n, (values gs').get? n = (values gs).get? n := Given.get?_perm hperm hnodup'
    rw [parse_words_ok_iff env hnodup', hok]
    have hassemble : assemble (collected env (values gs')) [] =
        assemble (collected env (values gs)) [] :=
      assemble_congr (fun n => by rw [collected_get?, collected_get?, hget n]) []
    simp only [effective?, hget, hassemble]
  · have hinherited : ∀ n ∉ (values gs).names, inherited? env' n = inherited? env n := by
      intro n hn
      rw [inherited?, inherited?]
      cases hx : n.envVar? with
      | none => rfl
      | some x => exact henv n (hnames ▸ hn) x hx
    rw [parse_words env' hnodup, parse_words env hnodup, collected_congr (values gs) hinherited]

/-- The log level that the environment gives would be refused, but another one is given. -/
theorem effective_values_decide_despite_environment :
    let level (v : String) : Env := fun x =>
      if x = "SYSG_WRAPPER_LOG_LEVEL" then some v
      else if x = "SYSG_WRAPPER_AGENT" then some "worker" else none
    let gs : List Spelled := [⟨.sink, "console", true, by decide⟩, ⟨.logLevel, "4", false, by decide⟩,
      ⟨.agentDir, "-", false, by decide⟩]
    let gs' : List Spelled := [⟨.agentDir, "-", true, by decide⟩, ⟨.sink, "console", false, by decide⟩,
      ⟨.logLevel, "4", true, by decide⟩]
    let o : Options := { default with
      verbosity := some .debug, agent := some "worker", directory := some "-", sink := .console }
    (gs.map (·.name)).Nodup ∧
    words gs = ["--sink=console", "--log-level", "4", "--agent-dir", "-"] ∧
    parse (level "loud") (words gs) = .ok o ∧ parse (level "loud") (words gs') = .ok o ∧
    parse (level "info") (words gs) = .ok o ∧
    Reads (effective? (level "loud") (values gs)) o := by
  intro level gs gs' o
  have hgs : (gs.map (·.name)).Nodup := by decide
  have ho : parse (level "loud") (words gs) = .ok o := by decide +kernel
  have hperm : (values gs').Perm (values gs) := by decide
  have henv : ∀ n ∉ gs.map (·.name), ∀ x, n.envVar? = some x → level "info" x = level "loud" x := by
    intro n hn x hx
    cases n with
    | logLevel => exact absurd (by decide) hn
    | _ => cases hx <;> rfl
  obtain ⟨-, hreads, horder, hvariables⟩ := effective_values_decide (level "loud") gs hgs
  exact ⟨hgs, rfl, ho, (horder gs' hperm o).mpr ho, (hvariables (level "info") henv).trans ho,
    hreads o ho⟩

end Warden.Options
