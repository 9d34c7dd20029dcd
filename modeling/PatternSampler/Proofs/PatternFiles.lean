import PatternSampler.Proofs.Endings
/-!
# Files of patterns

A file of patterns is worked off line by line, and each line contributes what it would on its own:
the texts that the session writes are those of the lines one after the other, and all is well if
all is well for each line.  What goes wrong is reported, for a pattern or for an item of it
(`Contribution`), and never ends the work on what follows.  The session comes to an outcome just
as each of its lines does, and lines whose programs can be addressed do.
-/
set_option autoImplicit false

namespace PatternSampler.CommandLine

/-! ## Outcomes -/

namespace Outcome

variable {o : Outcome} {os : List Outcome}

@[simp]
theorem nothing_andThen (o : Outcome) : nothing.andThen o = o := by
  simp [nothing, andThen]

@[simp]
theorem andThen_nothing (o : Outcome) : o.andThen nothing = o := by
  simp [nothing, andThen]

theorem andThen_assoc (a b c : Outcome) : (a.andThen b).andThen c = a.andThen (b.andThen c) := by
  simp [andThen, Bool.and_assoc, String.append_assoc]

@[simp]
theorem all_nil : all [] = nothing := rfl

@[simp]
theorem all_cons (o : Outcome) (os : List Outcome) : all (o :: os) = o.andThen (all os) := by
  have hfrom : ∀ (os : List Outcome) (a : Outcome), os.foldl andThen a = a.andThen (all os) := by
    intro os
    induction os with
    | nil =>
      intro a
      simp
    | cons o os ih =>
      intro a
      rw [all, List.foldl_cons, List.foldl_cons, ih, ih, nothing_andThen, andThen_assoc]
  rw [all, List.foldl_cons, hfrom, nothing_andThen]

/-- A text that outcomes put together keeps the order of the outcomes. -/
theorem map_all {f : Outcome → String} (hnothing : f nothing = "")
    (handThen : ∀ a b, f (a.andThen b) = f a ++ f b) (os : List Outcome) :
    f (all os) = String.join (os.map f) := by
  induction os with
  | nil => exact hnothing
  | cons o os ih => rw [all_cons, handThen, ih, List.map_cons, String.join_cons]

theorem out_all (os : List Outcome) : (all os).out = String.join (os.map (·.out)) :=
  map_all rfl (fun _ _ => rfl) os

theorem err_all (os : List Outcome) : (all os).err = String.join (os.map (·.err)) :=
  map_all rfl (fun _ _ => rfl) os

theorem isOk_all_iff : (all os).isOk = true ↔ ∀ o ∈ os, o.isOk = true := by
  induction os with
  | nil => simp [nothing]
  | cons o os ih =>
    rw [all_cons, List.forall_mem_cons, ← ih]
    exact Bool.and_eq_true_iff

theorem code_eq_zero_iff : o.code = 0 ↔ o.isOk = true := by
  simp [code]

end Outcome

/-! ## Reports -/

section Reports

variable {w : World} {args : Arguments} {cfg : Config} {source : String}

/-- A report is never empty. -/
theorem err_report_ne_empty (w : World) (args : Arguments) (d : Diagnostic) :
    (report w args d).err ≠ "" := by
  rw [report]
  split
  · simp
  · -- the colon behind the severity is there in either rendering
    cases w.isTerminal <;>
      simp [Terminal.render, Terminal.join, Terminal.fragments, Terminal.headline, Terminal.plain,
        Terminal.Fragment.paint]

/-- What is reported of a result. -/
def resultDiagnostic? (source : String) : Except SamplerError String → Option Diagnostic
  | .ok _ => none
  | .error e => some (withNonemptySource source (.ofSamplerError e))

/-- What is reported of an item, by its attempts. -/
def itemDiagnostic? (source : String) (tries : List Attempt) : Option Diagnostic :=
  tries.getLast?.bind fun a => resultDiagnostic? source a.result

theorem conclusion_eq (w : World) (args : Arguments) (source : String)
    (result : Except SamplerError String) :
    (∃ text, resultDiagnostic? source result = none ∧
      conclusion w args source result = .print (outputLine args text)) ∨
    ∃ d, resultDiagnostic? source result = some d ∧
      conclusion w args source result = report w args d :=
  match result with
  | .ok text => .inl ⟨text, rfl, rfl⟩
  | .error _ => .inr ⟨_, rfl, rfl⟩

/-- An item that has been tried writes a line, or what is reported of it. -/
theorem item_eq {tries : List Attempt} (hne : tries ≠ []) :
    (∃ text, itemDiagnostic? source tries = none ∧ item w args source tries =
      (Outcome.note (String.join (tries.map (·.trace)))).andThen (.print (outputLine args text))) ∨
    ∃ d, itemDiagnostic? source tries = some d ∧ item w args source tries =
      (Outcome.note (String.join (tries.map (·.trace)))).andThen (report w args d) := by
  rw [itemDiagnostic?, item, List.getLast?_eq_some_getLast hne]
  dsimp only [Option.bind_some]
  obtain ⟨text, hnone, heq⟩ | ⟨d, hsome, heq⟩ :=
    conclusion_eq w args source (tries.getLast hne).result
  · exact .inl ⟨text, hnone, by rw [heq]⟩
  · exact .inr ⟨d, hsome, by rw [heq]⟩

theorem isOk_item_iff {tries : List Attempt} (hne : tries ≠ []) :
    (item w args source tries).isOk = true ↔ itemDiagnostic? source tries = none := by
  obtain ⟨text, hnone, heq⟩ | ⟨d, hsome, heq⟩ := @item_eq w args source tries hne
  · simp [hnone, heq, Outcome.andThen, Outcome.note, Outcome.print]
  · simp [hsome, heq, Outcome.andThen, Outcome.note, report]

theorem join_eq_empty {texts : List String} (h : ∀ text ∈ texts, text = "") :
    String.join texts = "" := by
  induction texts with
  | nil => rfl
  | cons text texts ih =>
    obtain ⟨rfl, hrest⟩ := List.forall_mem_cons.mp h
    rw [String.join_cons, ih hrest, String.empty_append]

/-- Without a trace, an item writes on standard error what is reported of it. -/
theorem err_item {tries : List Attempt} (hne : tries ≠ []) (hquiet : ∀ a ∈ tries, a.trace = "") :
    (item w args source tries).err =
      String.join ((itemDiagnostic? source tries).toList.map fun d => (report w args d).err) := by
  have htraces : String.join (tries.map (·.trace)) = "" :=
    join_eq_empty (List.forall_mem_map.mpr hquiet)
  obtain ⟨text, hnone, heq⟩ | ⟨d, hsome, heq⟩ := @item_eq w args source tries hne
  · simp [hnone, heq, htraces, Outcome.andThen, Outcome.note, Outcome.print]
  · simp [hsome, heq, htraces, Outcome.andThen, Outcome.note]

theorem err_all_item {results : List (List Attempt)}
    (h : ∀ tries ∈ results, tries ≠ [] ∧ ∀ a ∈ tries, a.trace = "") :
    (Outcome.all (results.map (item w args source))).err =
      String.join ((results.filterMap (itemDiagnostic? source)).map
        fun d => (report w args d).err) := by
  induction results with
  | nil => rfl
  | cons tries results ih =>
    obtain ⟨⟨hne, hquiet⟩, hrest⟩ := List.forall_mem_cons.mp h
    rw [List.map_cons, Outcome.all_cons]
    change (item w args source tries).err ++ _ = _
    rw [err_item hne hquiet, ih hrest, List.filterMap_cons]
    cases itemDiagnostic? source tries <;> simp

theorem isOk_dump (args : Arguments) (p : Program) : (dump args p).isOk = true := by
  rw [dump]
  split <;> rfl

theorem err_dump (args : Arguments) (p : Program) : (dump args p).err = "" := by
  rw [dump]
  split <;> rfl

theorem join_report_eq_empty_iff (ds : List Diagnostic) :
    String.join (ds.map fun d => (report w args d).err) = "" ↔ ds = [] := by
  cases ds with
  | nil => simp
  | cons d ds => simp [err_report_ne_empty]

end Reports

/-! ## Patterns -/

/-- The attempts for the items of a pattern: those of each item are its tries under consecutive
seeds, from some point of the seeds on, whatever came of the items before. -/
structure Items {b : Backend} (args : Arguments) (cfg : Config) (s : Sampler b)
    (results : List (List Attempt)) : Prop where
  length : results.length = (args.count.getD 1).toNat
  tries : ∀ tries ∈ results, ∃ n, EndsIn (fun fuel => (attempts (runSampler s fuel) settled
    (max 1 (args.attempts.getD 1).toNat) (advance cfg n)).mapM id) tries

/-- What a pattern comes to, and what is reported of it: that it has no sampler, or else which of
its items have come to nothing. -/
structure Contribution (w : World) (args : Arguments) (cfg : Config) (source : String) (o : Outcome)
    (reported : List Diagnostic) : Prop where
  refused : ∀ e, Sampler.ofSource w.backend args.patternOptions source = .error e →
    reported = [(Diagnostic.ofSamplerError e).withSource source] ∧
      o = report w args ((Diagnostic.ofSamplerError e).withSource source)
  items : ∀ s, Sampler.ofSource w.backend args.patternOptions source = .ok s → ∃ results,
    Items args cfg s results ∧ reported = results.filterMap (itemDiagnostic? source) ∧
      o = (dump args s.program).andThen (.all (results.map (item w args source)))

section Patterns

variable {w : World} {args : Arguments} {cfg : Config} {source : String}

/-- Each item has been tried, and shows nothing of its runs unless the settings ask for it. -/
theorem Items.tried {b : Backend} {s : Sampler b} {results : List (List Attempt)}
    (h : Items args cfg s results) {tries : List Attempt} (htries : tries ∈ results) :
    tries ≠ [] ∧ (cfg.debug = false → ∀ a ∈ tries, a.trace = "") := by
  obtain ⟨n, hends⟩ := h.tries tries htries
  obtain ⟨fuel, hfuel⟩ := Filter.Eventually.exists hends
  rw [mapM_eq_some_iff, List.map_id] at hfuel
  constructor
  · rintro rfl
    exact attempts_ne_nil (by omega) hfuel
  · intro hdebug a ha
    have hmem : some a ∈ tries.map some := List.mem_map_of_mem ha
    rw [← hfuel] at hmem
    obtain ⟨m, hm⟩ := exists_of_mem_attempts hmem
    obtain ⟨result, -, rfl⟩ := Option.map_eq_some_iff.mp hm.symm
    exact if_neg (by simp [advance, Config.withSeed, hdebug])

theorem items_of_produce {b : Backend} {s : Sampler b} {fuel : Nat} {o : Outcome}
    (h : produce w args cfg source (runSampler s fuel) = some o) :
    ∃ results, Items args cfg s results ∧ o = .all (results.map (item w args source)) := by
  obtain ⟨results, hresults, rfl⟩ := produce_eq_some_iff.mp h
  refine ⟨results, ⟨?_, fun tries htries => ?_⟩, rfl⟩
  · rw [← List.length_map (List.map some), ← hresults, length_series]
  · have hmem : tries.map some ∈ results.map (List.map some) := List.mem_map_of_mem htries
    rw [← hresults] at hmem
    obtain ⟨n, hn⟩ := exists_of_mem_series hmem
    refine ⟨n, Filter.eventually_atTop.mpr ⟨fuel, fun fuel' hle => ?_⟩⟩
    rw [mapM_eq_some_iff, List.map_id]
    exact attempts_carried (fun c _ hc => runSampler_persistent s c hle hc) hn.symm

theorem exists_contribution {o : Outcome} (h : EndsIn (patternSession w args cfg source) o) :
    ∃ reported, Contribution w args cfg source o reported := by
  obtain ⟨fuel, hfuel⟩ := Filter.Eventually.exists h
  rw [patternSession] at hfuel
  cases hsampler : Sampler.ofSource w.backend args.patternOptions source with
  | error e =>
    simp only [hsampler, Option.some.injEq] at hfuel
    refine ⟨[(Diagnostic.ofSamplerError e).withSource source], fun e' he' => ?_,
      fun s hs => by simp [hsampler] at hs⟩
    obtain rfl := Except.error.inj (hsampler.symm.trans he')
    exact ⟨rfl, hfuel.symm⟩
  | ok s =>
    simp only [hsampler] at hfuel
    obtain ⟨all, hall, rfl⟩ := Option.map_eq_some_iff.mp hfuel
    obtain ⟨results, hitems, rfl⟩ := items_of_produce hall
    refine ⟨results.filterMap (itemDiagnostic? source), fun e he => by simp [hsampler] at he,
      fun s' hs' => ?_⟩
    obtain rfl := Except.ok.inj (hsampler.symm.trans hs')
    exact ⟨results, hitems, rfl, rfl⟩

/-- A pattern goes well if nothing is reported of it. -/
theorem Contribution.isOk_iff {o : Outcome} {reported : List Diagnostic}
    (h : Contribution w args cfg source o reported) : o.isOk = true ↔ reported = [] := by
  cases hsampler : Sampler.ofSource w.backend args.patternOptions source with
  | error e =>
    obtain ⟨rfl, rfl⟩ := h.refused e hsampler
    simp [report]
  | ok s =>
    obtain ⟨results, hitems, rfl, rfl⟩ := h.items s hsampler
    rw [Outcome.andThen, isOk_dump, Bool.true_and, Outcome.isOk_all_iff, List.filterMap_eq_nil_iff,
      List.forall_mem_map]
    exact forall₂_congr fun tries htries => isOk_item_iff (hitems.tried htries).1

/-- Without a trace, standard error is what is reported. -/
theorem Contribution.err_eq {o : Outcome} {reported : List Diagnostic}
    (h : Contribution w args cfg source o reported) (hdebug : cfg.debug = false) :
    o.err = String.join (reported.map fun d => (report w args d).err) := by
  cases hsampler : Sampler.ofSource w.backend args.patternOptions source with
  | error e =>
    obtain ⟨rfl, rfl⟩ := h.refused e hsampler
    simp
  | ok s =>
    obtain ⟨results, hitems, rfl, rfl⟩ := h.items s hsampler
    rw [Outcome.andThen, err_dump, String.empty_append]
    exact err_all_item fun tries htries =>
      ⟨(hitems.tried htries).1, (hitems.tried htries).2 hdebug⟩

/-- A pattern comes to an outcome unless its program is too long to be addressed. -/
theorem exists_endsIn_patternSession (w : World) (args : Arguments) (cfg : Config)
    (hfits : ∀ s, Sampler.ofSource w.backend args.patternOptions source = .ok s →
      s.program.code.Fits) : ∃ o, EndsIn (patternSession w args cfg source) o := by
  unfold patternSession
  cases hsampler : Sampler.ofSource w.backend args.patternOptions source with
  | error e => exact ⟨_, endsIn_const _⟩
  | ok s =>
    choose attempt hattempt using exists_endsIn_runSampler hsampler (hfits s hsampler)
    exact ⟨_, (endsIn_produce hattempt).map _⟩

end Patterns

/-! ## Lines on their own -/

/-- The arguments with a line as the pattern, in place of the file. -/
def Arguments.alone (args : Arguments) (line : String) : Arguments :=
  { args with file := none, pattern := some line }

/-- The outcome for some lines is put together from those of the lines on their own, `alone`;
`reported` is what is reported of each line. -/
structure LineByLine (w : World) (args : Arguments) (cfg : Config) (lines : List String)
    (o : Outcome) (alone : String → Outcome) (reported : String → List Diagnostic) : Prop where
  out : o.out = String.join (lines.map fun line => (alone line).out)
  err : o.err = String.join (lines.map fun line => (alone line).err)
  code : o.code = 0 ↔ ∀ line ∈ lines, (alone line).code = 0
  /-- Each line that is a pattern gives all its items, and what one of them comes to changes the
  later ones in nothing but their seeds. -/
  contributes : ∀ line ∈ lines, Contribution w args cfg line (alone line) (reported line)
  /-- The exit code tells whether anything was reported. -/
  clean : o.code = 0 ↔ lines.flatMap reported = []
  /-- Without a trace, standard error is what was reported. -/
  quiet : cfg.debug = false →
    o.err = String.join ((lines.flatMap reported).map fun d => (report w args d).err) ∧
      (o.code = 0 ↔ o.err = "")

section Lines

variable {w : World} {args : Arguments} {cfg : Config} {name : String} {text : List Char}
  {lines : List String}

theorem program_eq_none (hfile : args.file = some name) (hagree : args.agree = true) :
    args.program = none := by
  cases hprogram : args.program with
  | none => rfl
  | some program => simp [Arguments.agree, hfile, hprogram] at hagree

theorem agree_alone (hprogram : args.program = none) (line : String) :
    (args.alone line).agree = true := by
  simp [Arguments.agree, Arguments.alone, hprogram]

theorem session_eq_of_settings (hexplain : args.explain = none)
    (hlist : args.has .listErrors = false) (hsettings : settings w args = .ok cfg)
    (hprogram : args.program = none) : session w args = patternsSession w args cfg := by
  funext fuel
  simp [session, hexplain, hlist, hsettings, hprogram]

theorem session_alone (hexplain : args.explain = none) (hlist : args.has .listErrors = false)
    (hsettings : settings w args = .ok cfg) (hprogram : args.program = none) (line : String) :
    session w (args.alone line) = patternSession w args cfg line :=
  @session_eq_of_settings w (args.alone line) cfg hexplain hlist hsettings hprogram

/-- What comes before the patterns does not depend on them. -/
theorem exists_endsIn_of_early
    (h : args.explain ≠ none ∨ args.has .listErrors = true ∨ ∃ d, settings w args = .error d) :
    ∃ o, EndsIn (session w args) o ∧ ∀ line, EndsIn (session w (args.alone line)) o := by
  have hexplain (line : String) : (args.alone line).explain = args.explain := rfl
  have hlist (line : String) : (args.alone line).has .listErrors = args.has .listErrors := rfl
  have hsettings (line : String) : settings w (args.alone line) = settings w args := rfl
  obtain ⟨o, ho⟩ : ∃ o, ∀ fuel, session w args fuel = some o ∧
      ∀ line, session w (args.alone line) fuel = some o := by
    simp only [session, hexplain, hlist, hsettings]
    cases hcode : args.explain with
    | some code => exact ⟨_, fun _ => ⟨rfl, fun _ => rfl⟩⟩
    | none =>
      cases hlisted : args.has .listErrors with
      | true => exact ⟨_, fun _ => ⟨rfl, fun _ => rfl⟩⟩
      | false =>
        obtain ⟨d, hd⟩ : ∃ d, settings w args = .error d := by
          simpa [hcode, hlisted] using h
        rw [hd]
        exact ⟨_, fun _ => ⟨rfl, fun _ => rfl⟩⟩
  exact ⟨o, .of_forall fun fuel => (ho fuel).1, fun line => .of_forall fun fuel => (ho fuel).2 line⟩

theorem endsIn_linesSession {alone : String → Outcome}
    (h : ∀ line ∈ lines, EndsIn (patternSession w args cfg line) (alone line)) :
    EndsIn (linesSession w args cfg lines) (.all (lines.map alone)) :=
  (EndsIn.mapM h).map Outcome.all

/-- Lines that are worked off one after the other end just as they do one by one. -/
theorem exists_endsIn_linesSession_iff :
    (∃ o, EndsIn (linesSession w args cfg lines) o) ↔
      ∀ line ∈ lines, ∃ o, EndsIn (patternSession w args cfg line) o := by
  constructor
  · rintro ⟨o, ho⟩ line hline
    obtain ⟨fuel, hfuel⟩ := Filter.Eventually.exists ho
    obtain ⟨os, hos, -⟩ := Option.map_eq_some_iff.mp hfuel
    have hmem : patternSession w args cfg line fuel ∈ os.map some := by
      rw [← mapM_eq_some_iff.mp hos]
      exact List.mem_map_of_mem hline
    obtain ⟨o', -, ho'⟩ := List.mem_map.mp hmem
    exact ⟨o', (patternSession_persistent line).endsIn ho'.symm⟩
  · intro h
    have : Nonempty Outcome := ⟨.nothing⟩
    choose! alone halone using h
    exact ⟨_, endsIn_linesSession halone⟩

theorem err_all_of_contributes {alone : String → Outcome} {reported : String → List Diagnostic}
    (h : ∀ line ∈ lines, Contribution w args cfg line (alone line) (reported line))
    (hdebug : cfg.debug = false) : (Outcome.all (lines.map alone)).err =
      String.join ((lines.flatMap reported).map fun d => (report w args d).err) := by
  induction lines with
  | nil => rfl
  | cons line lines ih =>
    obtain ⟨hline, hrest⟩ := List.forall_mem_cons.mp h
    rw [List.map_cons, Outcome.all_cons]
    change (alone line).err ++ _ = _
    rw [hline.err_eq hdebug, ih hrest, List.flatMap_cons, List.map_append, String.join_append]

theorem exists_lineByLine {o : Outcome} {alone : String → Outcome}
    (ho : EndsIn (linesSession w args cfg lines) o)
    (halone : ∀ line ∈ lines, EndsIn (patternSession w args cfg line) (alone line)) :
    ∃ reported, LineByLine w args cfg lines o alone reported := by
  obtain rfl := ho.unique (endsIn_linesSession halone)
  have hreported : ∀ line ∈ lines, ∃ reported, Contribution w args cfg line (alone line) reported :=
    fun line hline => exists_contribution (halone line hline)
  choose! reported hcontributes using hreported
  have hclean : (Outcome.all (lines.map alone)).code = 0 ↔ lines.flatMap reported = [] := by
    rw [Outcome.code_eq_zero_iff, Outcome.isOk_all_iff, List.flatMap_eq_nil_iff,
      List.forall_mem_map]
    exact forall₂_congr fun line hline => (hcontributes line hline).isOk_iff
  refine ⟨reported, ?_⟩
  exact
    { out := by
        rw [Outcome.out_all, List.map_map]
        rfl
      err := by
        rw [Outcome.err_all, List.map_map]
        rfl
      code := by
        simp only [Outcome.code_eq_zero_iff]
        rw [Outcome.isOk_all_iff, List.forall_mem_map]
      contributes := hcontributes
      clean := hclean
      quiet := by
        intro hdebug
        have herr := err_all_of_contributes hcontributes hdebug
        refine ⟨herr, ?_⟩
        rw [hclean, herr, join_report_eq_empty_iff] }

/-- A file of patterns is worked off as its lines on their own are: it ends just as they do, and
then comes to what they come to; what the session does without patterns is done once, as for each
line. -/
theorem session_lineByLine (hfile : args.file = some name) (hread : w.files name = .ok text)
    (hagree : args.agree = true) :
    (∀ line, (args.alone line).agree = true) ∧
    (∀ cfg, args.explain = none → args.has .listErrors = false → settings w args = .ok cfg →
      ((∃ o, EndsIn (session w args) o) ↔
        ∀ line ∈ patternsOf text, ∃ o, EndsIn (session w (args.alone line)) o) ∧
      (∀ line, (∀ s, Sampler.ofSource w.backend args.patternOptions line = .ok s →
        s.program.code.Fits) → ∃ o, EndsIn (session w (args.alone line)) o) ∧
      ∀ o alone, EndsIn (session w args) o →
        (∀ line ∈ patternsOf text, EndsIn (session w (args.alone line)) (alone line)) →
          ∃ reported, LineByLine w args cfg (patternsOf text) o alone reported) ∧
    (args.explain ≠ none ∨ args.has .listErrors = true ∨ (∃ d, settings w args = .error d) →
      ∃ o, EndsIn (session w args) o ∧ ∀ line, EndsIn (session w (args.alone line)) o) := by
  have hprogram := program_eq_none hfile hagree
  refine ⟨agree_alone hprogram, fun cfg hexplain hlist hsettings => ?_, exists_endsIn_of_early⟩
  have hsession : session w args = linesSession w args cfg (patternsOf text) := by
    funext fuel
    rw [session_eq_of_settings hexplain hlist hsettings hprogram, patternsSession, hfile]
    simp only [hread]
  simp only [hsession, session_alone hexplain hlist hsettings hprogram]
  exact ⟨exists_endsIn_linesSession_iff, fun line => exists_endsIn_patternSession w args cfg,
    fun o alone => exists_lineByLine⟩

/-- A library that knows nothing but letters: a pattern is looked for as it stands, and one that
starts with a star is refused. -/
def letterBackend : Backend where
  Regex := List Char
  build _ source :=
    if source.toList.head? = some '*' then
      .error ⟨"Parsing error at position 0: Target of repeat operator is invalid"⟩
    else .ok source.toList
  isMatch letters text := .ok (decide (letters <:+: text.toList))

/-- Two patterns that go well, one that is refused, one whose text does not match, and an empty
line. -/
def mixedText : List Char := "ab\n\n*\n^a(?=b)c\ncd\n".toList

/-- A world in which each file has the same text. -/
def worldOf (text : List Char) : World where
  backend := letterBackend
  files _ := .ok text
  isTerminal := false
  settingsFault _ _ := ""
  programFault _ _ := ""

/-- The arguments that name a file and nothing else. -/
def fileArguments : Arguments := { Arguments.empty with file := some "p.txt" }

/-- The last pattern is worked off after two others have failed. -/
theorem session_lineByLine_mixedText :
    ∃ o alone reported, EndsIn (session (worldOf mixedText) fileArguments) o ∧
      (∀ line ∈ ["ab", "*", "^a(?=b)c", "cd"],
        EndsIn (session (worldOf mixedText) (fileArguments.alone line)) (alone line)) ∧
      LineByLine (worldOf mixedText) fileArguments .default ["ab", "*", "^a(?=b)c", "cd"]
        o alone reported ∧ o.out = "ab\ncd\n" ∧ o.code = 1 := by
  have hevaluates : (session (worldOf mixedText) fileArguments 64).map (fun o => (o.out, o.code)) =
      some ("ab\ncd\n", 1) := by decide +kernel
  obtain ⟨o, hsession, heq⟩ := Option.map_eq_some_iff.mp hevaluates
  have hends := (session_persistent _ _).endsIn hsession
  have hlines : patternsOf mixedText = ["ab", "*", "^a(?=b)c", "cd"] := by decide
  obtain ⟨hiff, -, hlaw⟩ := (@session_lineByLine (worldOf mixedText) fileArguments "p.txt"
    mixedText rfl rfl rfl).2.1 .default rfl rfl rfl
  rw [hlines] at hiff hlaw
  have : Nonempty Outcome := ⟨.nothing⟩
  choose! alone halone using hiff.mp ⟨o, hends⟩
  obtain ⟨reported, h⟩ := hlaw o alone hends halone
  exact ⟨o, alone, reported, hends, halone, h, congrArg Prod.fst heq, congrArg Prod.snd heq⟩

theorem codeList_ne_empty : codeList ≠ "" := by
  obtain ⟨entry, entries, hentries⟩ : ∃ e es, Catalogue.entries = e :: es := ⟨_, _, rfl⟩
  rw [codeList, hentries, List.map_cons, String.join_cons]
  simp

/-- The list of codes is written once, for two patterns as for one. -/
theorem not_session_lineByLine_listErrors :
    ¬∀ (w : World) (args : Arguments) (name : String) (text : List Char) (o : Outcome)
      (alone : String → Outcome), args.file = some name → w.files name = .ok text →
      args.agree = true → EndsIn (session w args) o →
      (∀ line ∈ patternsOf text, EndsIn (session w (args.alone line)) (alone line)) →
        o.out = String.join ((patternsOf text).map fun line => (alone line).out) := by
  intro h
  have hlists := h (worldOf "a\nb\n".toList) { fileArguments with flags := [.listErrors] } "p.txt"
    _ (.print codeList) (fun _ => .print codeList) rfl rfl rfl (endsIn_const _)
    fun _ _ => endsIn_const _
  have hlines : patternsOf "a\nb\n".toList = ["a", "b"] := by decide
  have htwice : codeList = String.join [codeList, codeList] := by
    rw [hlines] at hlists
    exact hlists
  have hlength : codeList.length = codeList.length + codeList.length := by
    simpa using congrArg String.length htwice
  apply codeList_ne_empty
  rw [← String.length_eq_zero_iff]
  omega

end Lines

end PatternSampler.CommandLine
