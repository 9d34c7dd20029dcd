import Mathlib.Data.List.Induction
import PatternSampler.Generation.Config
import PatternSampler.Proofs.Loading
/-!
# Settings written and loaded

The alphabet of a setting travels as a text, and reading one drops what stands in it twice.
Settings are therefore read back as they were only if no character stands twice in their alphabet
(`load_of_reached`), which everything that makes settings sees to: `Reached` has one case for each
way to make or change them.
-/
set_option autoImplicit false

namespace PatternSampler

/-! ## First occurrences -/

/-- The characters of a list, each where it stands first. -/
structure FirstOccurrences (cs ds : List Char) : Prop where
  nodup : ds.Nodup
  mem_iff : ∀ c, c ∈ ds ↔ c ∈ cs
  ordered : ds.Pairwise fun a b => cs.idxOf a < cs.idxOf b

theorem distinct_concat (cs : List Char) (c : Char) :
    distinct (cs ++ [c]) = if c ∈ distinct cs then distinct cs else distinct cs ++ [c] := by
  rw [distinct, List.foldl_append]
  rfl

theorem firstOccurrences_distinct (cs : List Char) : FirstOccurrences cs (distinct cs) := by
  -- the list grows at its end, as the characters kept do
  induction cs using List.reverseRecOn with
  | nil => exact ⟨List.nodup_nil, fun _ => Iff.rfl, .nil⟩
  | append_singleton cs c ih =>
    have hkept : (distinct cs).Pairwise fun a b => (cs ++ [c]).idxOf a < (cs ++ [c]).idxOf b := by
      refine ih.ordered.imp_of_mem fun ha hb hlt => ?_
      rwa [List.idxOf_append_of_mem ((ih.mem_iff _).mp ha),
        List.idxOf_append_of_mem ((ih.mem_iff _).mp hb)]
    rw [distinct_concat]
    split
    · rename_i hc
      have hmem : c ∈ cs := (ih.mem_iff c).mp hc
      exact ⟨ih.nodup, fun d => by simp [ih.mem_iff]; rintro rfl; exact hmem, hkept⟩
    · rename_i hc
      have hnew : c ∉ cs := fun h => hc ((ih.mem_iff c).mpr h)
      refine ⟨?_, fun d => by simp [ih.mem_iff], ?_⟩
      · exact List.nodup_append.mpr ⟨ih.nodup, List.nodup_singleton c, by
          rintro a ha b hb rfl
          exact hc (List.mem_singleton.mp hb ▸ ha)⟩
      · refine List.pairwise_append.mpr ⟨hkept, List.pairwise_singleton _ _, fun a ha b hb => ?_⟩
        have hmem : a ∈ cs := (ih.mem_iff a).mp ha
        rw [List.mem_singleton.mp hb, List.idxOf_append_of_mem hmem,
          List.idxOf_append_of_notMem hnew]
        exact Nat.lt_add_right _ (List.idxOf_lt_length_of_mem hmem)

theorem distinct_of_nodup {cs : List Char} (h : cs.Nodup) : distinct cs = cs := by
  induction cs using List.reverseRecOn with
  | nil => rfl
  | append_singleton cs c ih =>
    obtain ⟨hcs, -, hdisjoint⟩ := List.nodup_append.mp h
    have hc : c ∉ cs := fun hc => hdisjoint c hc c (List.mem_singleton_self c) rfl
    rw [distinct_concat, ih hcs, if_neg hc]

namespace Config

/-! ## Reading what was written -/

theorem alphabetOfJson?_ofList (cs : List Char) :
    alphabetOfJson? (.text (String.ofList cs)) = some (distinct cs) := by
  rw [alphabetOfJson?, Json.toText?_text, Option.map_some, String.toList_ofList]

theorem ofJson?_of_fields? {v a b c d e : Json} {cfg : Config}
    (hfields : v.fields? ["alphabet", "seed", "repetition_cap", "boundary_char", "debug"] =
      some [some a, some b, some c, some d, some e])
    (ha : alphabetOfJson? a = some cfg.alphabet) (hb : Json.toUInt64? b = some cfg.seed)
    (hc : Json.toUInt64? c = some cfg.repetitionCap) (hd : Json.toChar? d = some cfg.boundary)
    (he : Json.toBool? e = some cfg.debug) : ofJson? v = some cfg := by
  simp only [ofJson?, hfields, Json.optional, ha, hb, hc, hd, he]

/-- Settings are read back but for what stands twice in their alphabet. -/
theorem ofJson?_toJson (cfg : Config) :
    ofJson? cfg.toJson = some (cfg.withAlphabet cfg.alphabet) :=
  have hdebug : Json.toBool? (.bool cfg.debug) = some cfg.debug := rfl
  ofJson?_of_fields? (by simp [toJson, Json.fields?, Json.field?])
    (alphabetOfJson?_ofList cfg.alphabet) (Json.toUInt64?_toNat cfg.seed)
    (Json.toUInt64?_toNat cfg.repetitionCap) (Json.toChar?_singleton cfg.boundary) hdebug

theorem plain_toJson (cfg : Config) : cfg.toJson.Plain :=
  .obj (by simp [Json.Plain.text, Json.Plain.int, Json.Plain.bool])

theorem load_of_reads {cfg : Config} {text gap : List Char} (h : Json.Reads text cfg.toJson)
    (hgap : Json.Blank gap) : load (text ++ gap) = .ok (cfg.withAlphabet cfg.alphabet) :=
  Json.readAs_of_reads h hgap (by rw [ofJson?_toJson])

/-- Settings load from either of their texts, but for what stands twice in their alphabet. -/
theorem load_text (cfg : Config) {text : String}
    (htext : text ∈ [cfg.toJson.compact, cfg.toJson.indented]) :
    load text.toList = .ok (cfg.withAlphabet cfg.alphabet) := by
  simp only [List.mem_cons, List.not_mem_nil, or_false] at htext
  rw [← List.append_nil text.toList]
  rcases htext with rfl | rfl
  · rw [Json.compact, String.toList_ofList]
    exact load_of_reads cfg.plain_toJson.reads_write Json.blank_nil
  · rw [Json.indented, String.toList_ofList]
    exact load_of_reads (cfg.plain_toJson.reads_writeIndented 0) Json.blank_nil

theorem withAlphabet_alphabet_eq_iff {cfg : Config} :
    cfg.withAlphabet cfg.alphabet = cfg ↔ cfg.alphabet.Nodup := by
  constructor
  · intro h
    have halphabet : distinct cfg.alphabet = cfg.alphabet := congrArg Config.alphabet h
    rw [← halphabet]
    exact (firstOccurrences_distinct cfg.alphabet).nodup
  · intro h
    rw [withAlphabet, distinct_of_nodup h]

/-! ## Settings that can be made -/

/-- The characters that the text of some settings gives for the alphabet. -/
def alphabetIn (text : List Char) : List Char :=
  match Json.readFirst text with
  | .ok (v, _) =>
    match v.fields? ["alphabet", "seed", "repetition_cap", "boundary_char", "debug"] with
    | some (some (.text alphabet) :: _) => alphabet.toList
    | _ => defaultAlphabet.toList
  | .error _ => []

/-- Settings that can be made, and the characters last given for their alphabet. -/
inductive Reached : List Char → Config → Prop where
  | default : Reached defaultAlphabet.toList .default
  | ofSeed (seed : UInt64) : Reached defaultAlphabet.toList (ofSeed seed)
  | load {text : List Char} {cfg : Config} (h : load text = .ok cfg) : Reached (alphabetIn text) cfg
  | withAlphabet {given : List Char} {cfg : Config} (h : Reached given cfg) (cs : List Char) :
    Reached cs (cfg.withAlphabet cs)
  | withSeed {given : List Char} {cfg : Config} (h : Reached given cfg) (seed : UInt64) :
    Reached given (cfg.withSeed seed)
  | withRepetitionCap {given : List Char} {cfg : Config} (h : Reached given cfg) (cap : UInt64) :
    Reached given (cfg.withRepetitionCap cap)
  | withBoundary {given : List Char} {cfg : Config} (h : Reached given cfg) (c : Char) :
    Reached given (cfg.withBoundary c)
  | withDebug {given : List Char} {cfg : Config} (h : Reached given cfg) (debug : Bool) :
    Reached given (cfg.withDebug debug)

theorem distinct_defaultAlphabet : distinct defaultAlphabet.toList = defaultAlphabet.toList :=
  distinct_of_nodup (by decide)

theorem alphabetOfJson?_eq_some {v : Json} {cs : List Char} (h : alphabetOfJson? v = some cs) :
    ∃ s, v = .text s ∧ cs = distinct s.toList := by
  cases v with
  | text s => exact ⟨s, rfl, (Option.some.inj h).symm⟩
  | _ => simp [alphabetOfJson?, Json.toText?] at h

/-- The alphabet of settings that load is what the text gives for it. -/
theorem alphabet_of_load {text : List Char} {cfg : Config} (h : Config.load text = .ok cfg) :
    cfg.alphabet = distinct (alphabetIn text) := by
  obtain ⟨v, rest, hread, -, hdecode⟩ := Json.readAs_eq_ok_iff.mp h
  have hv : ofJson? v = some cfg := by
    split at hdecode
    · rename_i cfg' hcfg
      rw [hcfg, Except.ok.inj hdecode]
    · simp at hdecode
  unfold ofJson? at hv
  split at hv
  · rename_i field _ _ _ _ hfields
    split at hv
    · rename_i alphabet _ _ _ _ halphabet _ _ _ _
      have hcfg : cfg.alphabet = alphabet := congrArg Config.alphabet (Option.some.inj hv).symm
      rw [hcfg, alphabetIn, hread]
      simp only [hfields]
      cases field with
      | none =>
        have hdefault : defaultAlphabet.toList = alphabet := Option.some.inj halphabet
        rw [← hdefault]
        exact distinct_defaultAlphabet.symm
      | some a =>
        obtain ⟨s, rfl, rfl⟩ := alphabetOfJson?_eq_some halphabet
        rfl
    · simp at hv
  · simp at hv

theorem Reached.alphabet_eq {given : List Char} {cfg : Config} (h : Reached given cfg) :
    cfg.alphabet = distinct given := by
  induction h with
  | default => exact distinct_defaultAlphabet.symm
  | ofSeed seed => exact distinct_defaultAlphabet.symm
  | load h => exact alphabet_of_load h
  | withAlphabet _ cs => rfl
  | withSeed _ _ ih => exact ih
  | withRepetitionCap _ _ ih => exact ih
  | withBoundary _ _ ih => exact ih
  | withDebug _ _ ih => exact ih

/-- Settings that can be made hold the characters last given for the alphabet, each where it stood
first, and are read back from either of their texts as what they are.  Of all settings, just those
without a character twice in their alphabet are. -/
theorem load_of_reached :
    (∀ given cfg, Reached given cfg → FirstOccurrences given cfg.alphabet ∧
      ∀ text ∈ [cfg.toJson.compact, cfg.toJson.indented], load text.toList = .ok cfg) ∧
    ∀ cfg, load cfg.toJson.compact.toList = .ok cfg ↔ cfg.alphabet.Nodup := by
  refine ⟨fun given cfg h => ?_, fun cfg => ?_⟩
  · have hfirst : FirstOccurrences given cfg.alphabet :=
      h.alphabet_eq ▸ firstOccurrences_distinct given
    refine ⟨hfirst, fun text htext => ?_⟩
    rw [load_text cfg htext, withAlphabet_alphabet_eq_iff.mpr hfirst.nodup]
  · rw [load_text cfg (.head _), Except.ok.injEq, withAlphabet_alphabet_eq_iff]

/-- A text that gives a character of the alphabet twice, and the largest seed. -/
def repetitiveText : String :=
  "\x7b\"alphabet\":\"\\\"é\\\"\",\"seed\":18446744073709551615\x7d"

/-- What the text loads as. -/
def repetitiveConfig : Config := { Config.default with
  alphabet := ['"', 'é'], seed := 18446744073709551615 }

theorem load_repetitiveText : load repetitiveText.toList = .ok repetitiveConfig := by
  decide +kernel

theorem load_of_reached_repetitive :
    Reached ['"', 'é', '"'] (repetitiveConfig.withBoundary '😀') ∧
      ¬['"', 'é', '"'].Nodup ∧
      FirstOccurrences ['"', 'é', '"'] ['"', 'é'] ∧
      load (repetitiveConfig.withBoundary '😀').toJson.indented.toList =
        .ok (repetitiveConfig.withBoundary '😀') := by
  have hgiven : alphabetIn repetitiveText.toList = ['"', 'é', '"'] := by decide +kernel
  have hreached := (hgiven ▸ Reached.load load_repetitiveText).withBoundary '😀'
  obtain ⟨hfirst, hload⟩ := load_of_reached.1 _ _ hreached
  exact ⟨hreached, by decide, hfirst, hload _ (.tail _ (.head _))⟩

end Config

end PatternSampler
