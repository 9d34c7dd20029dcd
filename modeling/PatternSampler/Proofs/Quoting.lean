import PatternSampler.Proofs.ReadBack
import PatternSampler.Proofs.Simulation
/-!
# Quoted text writes itself

With a backslash before each character that patterns give a meaning to, any text is a pattern that
writes just that text.  No two neighbours of a quoted text make a longer token, each token is read
as its character, and the characters are laid out as nothing, as one character or as one string of
the table.
-/
set_option autoImplicit false

namespace PatternSampler

open Layout

/-! ## Quoting -/

namespace Pattern

/-- The characters that patterns give a meaning to. -/
def operators : List Char :=
  ['\\', '(', ')', '[', ']', '|', '*', '+', '?', '{', '^', '$', '.', '-']

/-- A character with a backslash before it, if patterns give it a meaning. -/
def quoteChar (c : Char) : List Char := if c ∈ operators then ['\\', c] else [c]

/-- A text with a backslash before each character that patterns give a meaning to. -/
def quote (s : List Char) : List Char := s.flatMap quoteChar

/-- The token of a quoted character. -/
def quotedToken (c : Char) : Token := if c ∈ operators then .escaped c else .literal c

theorem isAlphanum_of_mem_operators {c : Char} (h : c ∈ operators) : c.isAlphanum = false := by
  have hall : operators.all (fun c => c.isAlphanum = false) := by decide
  simpa using List.all_eq_true.mp hall c h

/-- A quoted character is a token of its own, whatever follows it. -/
theorem foundIn_quoteChar (c : Char) (rest : List Char) :
    (quotedToken c).FoundIn (quoteChar c) rest := by
  unfold quotedToken quoteChar
  split
  · rename_i hc
    exact Token.foundIn_escaped (isAlphanum_of_mem_operators hc) rest
  · rename_i hc
    simp only [operators, List.mem_cons, List.not_mem_nil, or_false, not_or] at hc
    exact ⟨c, [], .literal c, rfl, rfl, by simp [scan, hc]⟩

theorem role_quotedToken (c : Char) : (quotedToken c).role = .action (.leaf (.char c)) := by
  unfold quotedToken
  split <;> rfl

theorem lexesTo_quote {rest : List Char} {ts : List Token} (h : LexesTo rest ts)
    (s : List Char) : LexesTo (quote s ++ rest) (s.map quotedToken ++ ts) := by
  induction s with
  | nil => exact h
  | cons c s ih =>
    rw [quote, List.flatMap_cons, List.append_assoc]
    exact ih.cons (foundIn_quoteChar c _)

/-- Quoted characters become the items of the arm at hand. -/
theorem reads_quotedTokens (s : List Char) {next : Option Token} {l : Level} {k : Nat} :
    Reads 0 next l k (s.map quotedToken) ⟨l.arms, (s.map .char).reverse ++ l.items⟩ k := by
  induction s generalizing l with
  | nil => exact .nil
  | cons c s ih =>
    have hrest := @ih (l.push (.char c))
    rw [List.map_cons, List.map_cons, List.reverse_cons, List.append_assoc]
    exact (Reads.leaf (role_quotedToken c)).append hrest

theorem parse_quote (s : List Char) :
    parse (quote s) = .ok ⟨Node.ofItems (s.map .char), 0, []⟩ := by
  have hlexes := lexesTo_quote lexesTo_nil s
  rw [List.append_nil, List.append_nil] at hlexes
  rw [parse_of_lexesTo hlexes (reads_quotedTokens s)]
  simp [Level.node, Level.arm, Level.start, Node.ofArms]

end Pattern

/-! ## Literal trees -/

variable {options : PatternOptions}

/-- The items of a literal sequence are all in one run. -/
theorem layoutItems_chars (rtl : Bool) (a : Nat) (t : Tables) (run s : List Char) :
    layoutItems options rtl a t run (s.map .char) = layoutRun options rtl t (run.reverse ++ s) := by
  induction s generalizing run with
  | nil => rw [List.map_nil, layoutItems, List.append_nil]
  | cons c s ih =>
    rw [List.map_cons, layoutItems, ih, List.reverse_cons, List.append_assoc]
    rfl

theorem layoutNode_chars (rtl : Bool) (a : Nat) (t : Tables) (s : List Char) :
    layoutNode options rtl a t (.ofItems (s.map .char)) = layoutRun options rtl t s := by
  match s with
  | [] => rw [List.map_nil, Node.ofItems, layoutNode, layoutRun]
  | [c] => rfl
  | c :: d :: s => exact layoutItems_chars rtl a t [] (c :: d :: s)

theorem width_chars (s : List Char) : width options (.ofItems (s.map .char)) ≤ 2 := by
  have hlength := @length_layoutRun options false .empty s.reverse
  rw [List.reverse_reverse, runWidth] at hlength
  rw [← length_layoutNode _ false 3 .empty, layoutNode_chars, hlength]
  split <;> omega

/-- A literal tree refers to one string at most, and to no class. -/
theorem tables_chars (rtl : Bool) (a : Nat) (s : List Char) :
    (layoutNode options rtl a .empty (.ofItems (s.map .char))).2.classes = [] ∧
      (layoutNode options rtl a .empty (.ofItems (s.map .char))).2.strings.length ≤ 1 := by
  rw [layoutNode_chars]
  match s with
  | [] => exact ⟨rfl, Nat.zero_le 1⟩
  | [_] => exact ⟨rfl, Nat.zero_le 1⟩
  | _ :: _ :: _ => exact ⟨rfl, Nat.le_refl 1⟩

/-- The code of a tree can be addressed that takes few words and refers to hardly anything. -/
theorem fits_of_small {root : Node} (hwidth : width options root ≤ 9)
    (htables : (layoutNode options false 3 .empty root).2.classes = [] ∧
      (layoutNode options false 3 .empty root).2.strings.length ≤ 1) :
    (layoutRoot options root).Fits := by
  refine ⟨by rw [size_layoutRoot]; omega, ?_, ?_⟩
  · simp only [layoutRoot, List.size_toArray, htables.1, List.length_nil]
    decide
  · simp only [layoutRoot, List.size_toArray]
    omega

/-- The code of a literal tree can be addressed, however long the text is. -/
theorem fits_chars (s : List Char) : (layoutRoot options (.ofItems (s.map .char))).Fits :=
  fits_of_small ((width_chars s).trans (by decide)) (tables_chars false 3 s)

theorem sampleItems_chars {cfg : Config} (a : Nat) (inRun : Bool) (s : List Char) :
    Node.sampleItems options cfg a inRun (s.map .char) = .text (String.ofList s) := by
  induction s generalizing a inRun with
  | nil =>
    rw [List.map_nil, Node.sampleItems]
    rfl
  | cons c s ih =>
    rw [List.map_cons, Node.sampleItems, Node.sample, ih, Writer.text_andThen_text,
      String.singleton_eq_ofList, ← String.ofList_append, List.singleton_append]

/-- A literal tree writes its text. -/
theorem sample_chars {cfg : Config} (place : Place) (s : List Char) :
    (Node.ofItems (s.map .char)).sample options cfg place = .text (String.ofList s) := by
  match s with
  | [] => rfl
  | [c] => rfl
  | c :: d :: s => exact sampleItems_chars place.offset false (c :: d :: s)

/-- Quoted text is a pattern under any options, and writes itself under any settings. -/
theorem Program.generate_quote (options : PatternOptions) (s : String) :
    ∃ p, Program.ofSource options (Pattern.quote s.toList) = .ok p ∧
      ∀ cfg, ∃ steps, ∀ fuel ≥ steps, p.generate cfg fuel = some (.ok s) := by
  have hfits := @fits_chars options s.toList
  obtain ⟨p, hp, hcode⟩ := Program.exists_ofNode hfits
  refine ⟨p, ofSource_eq_ofNode (Pattern.parse_quote s.toList) hp, fun cfg => ?_⟩
  obtain ⟨steps, hsteps⟩ := @Program.generate_of_layoutRoot options cfg p _ hcode hfits
  refine ⟨steps, fun fuel hfuel => ?_⟩
  rw [hsteps fuel hfuel, Node.sampled, sample_chars, String.ofList_toList]
  rfl

example : Pattern.quote "2.5 (or \\-3)\x7d".toList = "2\\.5 \\(or \\\\\\-3\\)\x7d".toList := by
  decide

end PatternSampler
