import PatternSampler.Proofs.Pieces
import PatternSampler.Proofs.Scans
/-!
# Where lexemes stand

The lexemes of a text stand one directly after the other, from its first byte to its last, and none
of their ends lies inside a character (`Tiles`, `Lexeme.StandsIn`).  Each is the longest token that
the rules of tokens allow at its place (`Lexeme.LongestIn`).  Where the text does not split, those
in front of the fault do so up to the fault, and the text there starts with a backslash or with
bounds that are too large.  Main statement: `lex_tiles`.
-/
set_option autoImplicit false

namespace PatternSampler

/-! ## Spans -/

/-- The span covers some characters of the text, each of them whole. -/
structure Span.Within (s : Span) (text : List Char) : Prop where
  start_lt_stop : s.start < s.stop
  stop_le : s.stop ≤ Text.byteLength text
  start : Text.IsBoundary s.start text
  stop : Text.IsBoundary s.stop text

theorem Span.within_of_eq {text before piece after : List Char} (hpiece : piece ≠ [])
    (h : text = before ++ (piece ++ after)) :
    Span.Within ⟨Text.byteLength before, Text.byteLength (before ++ piece)⟩ text where
  start_lt_stop := by
    have hpos := Text.byteLength_pos hpiece
    simp only [Text.byteLength_append]
    omega
  stop_le := by
    rw [h]
    simp only [Text.byteLength_append]
    omega
  start := Text.isBoundary_of_eq h
  stop := Text.isBoundary_of_eq (by rw [h, List.append_assoc])

/-! ## Tilings -/

/-- The text of the lexeme is what the source has at the lexeme's span. -/
structure Lexeme.StandsIn (lx : Lexeme) (source : List Char) : Prop where
  within : lx.span.Within source
  slice : Text.slice? lx.span.start lx.span.stop source = some lx.text

/-- From the lexeme's place in the source on, the longest start that a rule fits is the lexeme's
text, and the rule makes the lexeme's token of it. -/
def Lexeme.LongestIn (lx : Lexeme) (source : List Char) : Prop :=
  ∃ before text, source = before ++ text ∧ Text.byteLength before = lx.span.start ∧
    LongestRule text lx.text.length (some lx.token)

/-- The lexemes cover the bytes from `start` to `stop`: none is empty, and each begins where the one
before it ends. -/
def Tiles : Nat → List Lexeme → Nat → Prop
  | start, [], stop => start = stop
  | start, lx :: rest, stop =>
    lx.span.start = start ∧ lx.span.start < lx.span.stop ∧ Tiles lx.span.stop rest stop

/-- The lexemes are what the scanner finds in `text`, which starts at a byte, up to its end or up to
a place where no token fits. -/
def lexemesFrom (position : Nat) : List Char → List Lexeme
  | [] => []
  | c :: cs =>
    match scan c cs with
    | .fault _ => []
    | .token t extra =>
      let text := c :: cs.take extra
      let stop := position + Text.byteLength text
      ⟨t, ⟨position, stop⟩, text⟩ :: lexemesFrom stop (cs.drop extra)
  termination_by cs => cs.length
  decreasing_by simp only [List.length_drop, List.length_cons]; omega

/-- A text that is put together from the texts of the lexemes, behind `before`, gives `upTo`; the
spans say where. -/
inductive Fills : List Char → List Lexeme → List Char → Prop where
  | nil (before : List Char) : Fills before [] before
  | cons {before upTo : List Char} {lx : Lexeme} {rest : List Lexeme} (htext : lx.text ≠ [])
      (hspan : lx.span = ⟨Text.byteLength before, Text.byteLength (before ++ lx.text)⟩)
      (hrest : Fills (before ++ lx.text) rest upTo) : Fills before (lx :: rest) upTo

namespace Fills

variable {before upTo : List Char} {lexemes : List Lexeme}

theorem eq_append (h : Fills before lexemes upTo) :
    upTo = before ++ lexemes.flatMap (·.text) := by
  induction h with
  | nil => simp
  | cons _ _ _ ih => rw [ih, List.flatMap_cons, List.append_assoc]

theorem tiles (h : Fills before lexemes upTo) :
    Tiles (Text.byteLength before) lexemes (Text.byteLength upTo) := by
  induction h with
  | nil => rfl
  | @cons before upTo lx rest htext hspan hrest ih =>
    have hwithin := @Span.within_of_eq _ before _ [] htext rfl
    rw [Tiles, hspan]
    exact ⟨rfl, hwithin.start_lt_stop, ih⟩

theorem standsIn (h : Fills before lexemes upTo) (after : List Char) :
    ∀ lx ∈ lexemes, lx.StandsIn (upTo ++ after) := by
  induction h with
  | nil => simp
  | @cons before upTo lx rest htext hspan hrest ih =>
    refine List.forall_mem_cons.mpr ⟨?_, ih⟩
    have heq : upTo ++ after = before ++ (lx.text ++ (rest.flatMap (·.text) ++ after)) := by
      rw [hrest.eq_append]
      simp only [List.append_assoc]
    refine ⟨hspan ▸ Span.within_of_eq htext heq, ?_⟩
    rw [hspan]
    exact Text.slice?_eq_some_iff.mpr ⟨before, _, heq, rfl, rfl⟩

end Fills

/-! ## Splitting a text -/

theorem lexemesFrom_of_lexFrom {position : Nat} {text : List Char} {lexemes : List Lexeme}
    (h : lexFrom position text = .ok lexemes) : lexemesFrom position text = lexemes := by
  fun_induction lexFrom position text generalizing lexemes with
  | case1 =>
    obtain rfl := Except.ok.inj h
    rw [lexemesFrom]
  | case2 => simp at h
  | case3 => simp at h
  | case4 position c cs t extra hscan piece stop lexemes' hlexemes =>
    rename_i ih
    obtain rfl := Except.ok.inj h
    rw [lexemesFrom, hscan, ← ih hlexemes]

theorem longestIn_of_mem_lexemesFrom {position : Nat} {text : List Char} {lx : Lexeme}
    (h : lx ∈ lexemesFrom position text) (before : List Char)
    (hbefore : Text.byteLength before = position) : lx.LongestIn (before ++ text) := by
  fun_induction lexemesFrom position text generalizing before with
  | case1 => simp at h
  | case2 => simp at h
  | case3 position c cs t extra hscan piece stop ih =>
    subst hbefore
    rcases List.mem_cons.mp h with rfl | h
    · have hlength : piece.length = extra + 1 := by
        rw [List.length_cons, List.length_take_of_le (rule_of_scan hscan).1]
      refine ⟨before, c :: cs, rfl, rfl, ?_⟩
      rw [hlength]
      exact scan_eq_token_iff.mp hscan
    · have hrest := ih h (before ++ piece) (by rw [Text.byteLength_append])
      have heq : before ++ piece ++ cs.drop extra = before ++ c :: cs := by
        simp [piece]
      rwa [heq] at hrest

theorem fills_of_lexFrom {text : List Char} {position : Nat} {lexemes : List Lexeme}
    (h : lexFrom position text = .ok lexemes) (before : List Char)
    (hbefore : Text.byteLength before = position) : Fills before lexemes (before ++ text) := by
  fun_induction lexFrom position text generalizing before lexemes with
  | case1 =>
    obtain rfl := Except.ok.inj h
    rw [List.append_nil]
    exact .nil before
  | case2 => simp at h
  | case3 => simp at h
  | case4 position c cs t extra hscan piece stop lexemes' hlexemes =>
    rename_i ih
    obtain rfl := Except.ok.inj h
    subst hbefore
    have hrest := ih hlexemes (before ++ piece) (by rw [Text.byteLength_append])
    have heq : before ++ piece ++ cs.drop extra = before ++ c :: cs := by
      simp [piece]
    rw [heq] at hrest
    exact .cons (by simp [piece]) (by rw [Text.byteLength_append]) hrest

/-- A fault is met where the lexemes in front of it end, and nowhere else than at a backslash or at
bounds. -/
theorem exists_fault_of_lexFrom {text : List Char} {position : Nat} {e : LexError}
    (h : lexFrom position text = .error e) (before : List Char)
    (hbefore : Text.byteLength before = position) :
    ∃ upTo c cs extra, before ++ text = upTo ++ c :: cs ∧
      Fills before (lexemesFrom position text) upTo ∧ scan c cs = .fault extra ∧
      e = ⟨LexCause.ofText c cs, Text.byteLength upTo, c :: cs.take extra⟩ := by
  fun_induction lexFrom position text generalizing before with
  | case1 => simp at h
  | case2 position c cs extra hscan =>
    obtain rfl := Except.error.inj h
    subst hbefore
    refine ⟨before, c, cs, extra, rfl, ?_, hscan, rfl⟩
    rw [lexemesFrom, hscan]
    exact .nil before
  | case3 position c cs t extra hscan piece stop e' herror ih =>
    obtain rfl := Except.error.inj h
    subst hbefore
    obtain ⟨upTo, d, ds, extra', heq, hfills, hfault, rfl⟩ :=
      ih herror (before ++ piece) (by rw [Text.byteLength_append])
    have htext : before ++ piece ++ cs.drop extra = before ++ c :: cs := by
      simp [piece]
    refine ⟨upTo, d, ds, extra', htext ▸ heq, ?_, hfault, rfl⟩
    rw [lexemesFrom, hscan]
    exact .cons (by simp) (by rw [Text.byteLength_append]) hfills
  | case4 => simp at h

theorem fault_start {c : Char} {cs : List Char} {extra : Nat} (h : scan c cs = .fault extra) :
    c = '\\' ∨ c = '{' ∧ OversizedBounds cs := by
  by_cases hc : c = '\\'
  · exact .inl hc
  · have hregular := @Scan.regular_scan c cs hc
    rw [h] at hregular
    exact .inr hregular

/-- The lexemes of a text cover it, the longest token at each place; where there is no token, those
in front of that place cover the text up to it, and an escape or bounds that are too large stand
there. -/
theorem lex_tiles (source : List Char) :
    (∀ lexemes, lex source = .ok lexemes → lexemesFrom 0 source = lexemes ∧
      Tiles 0 lexemes (Text.byteLength source) ∧
      ∀ lx ∈ lexemes, lx.StandsIn source ∧ lx.LongestIn source) ∧
    (∀ e, lex source = .error e →
      Tiles 0 (lexemesFrom 0 source) e.position ∧
      (∀ lx ∈ lexemesFrom 0 source, lx.StandsIn source ∧ lx.LongestIn source) ∧
      ∃ before c rest, source = before ++ c :: rest ∧ Text.byteLength before = e.position ∧
        e.snippet ≠ [] ∧ e.snippet <+: c :: rest ∧ Tokenless (c :: rest) ∧
        (c = '\\' ∨ c = '{' ∧ OversizedBounds rest)) ∧
    ('\\' ∉ source → (∀ rest, '{' :: rest <:+ source → ¬OversizedBounds rest) →
      ∃ lexemes, lex source = .ok lexemes) := by
  have hlongest : ∀ lx ∈ lexemesFrom 0 source, lx.LongestIn source := fun lx hlx =>
    longestIn_of_mem_lexemesFrom hlx [] rfl
  refine ⟨?_, ?_, fun hescape hbounds => (exists_lexFrom_iff hescape 0).mpr hbounds⟩
  · intro lexemes hlex
    have hfills : Fills [] lexemes source := fills_of_lexFrom hlex [] rfl
    have hstands := hfills.standsIn []
    rw [List.append_nil] at hstands
    have hlexemes := lexemesFrom_of_lexFrom hlex
    rw [hlexemes] at hlongest
    exact ⟨hlexemes, hfills.tiles, fun lx hlx => ⟨hstands lx hlx, hlongest lx hlx⟩⟩
  · intro e hlex
    obtain ⟨before, c, rest, extra, heq, hfills, hfault, rfl⟩ :=
      exists_fault_of_lexFrom hlex [] rfl
    rw [List.nil_append] at heq
    have hstands := hfills.standsIn (c :: rest)
    rw [← heq] at hstands
    have hsnippet : c :: rest.take extra <+: c :: rest :=
      List.cons_prefix_cons.mpr ⟨rfl, List.take_prefix extra rest⟩
    exact ⟨hfills.tiles, fun lx hlx => ⟨hstands lx hlx, hlongest lx hlx⟩, before, c, rest, heq,
      rfl, List.cons_ne_nil _ _, hsnippet, tokenless_iff.mpr ⟨extra, hfault⟩, fault_start hfault⟩

/-- A group opener that breaks off, and bounds that are too large. -/
def brokenSource : List Char := "é(?<a{4294967296}x".toList

theorem lex_tiles_brokenSource :
    lex brokenSource = .error ⟨.unexpected '{', 6, "{4294967296}".toList⟩ ∧
      Tiles 0 (lexemesFrom 0 brokenSource) 6 ∧
      ∃ before c rest, brokenSource = before ++ c :: rest ∧ Text.byteLength before = 6 ∧
        "{4294967296}".toList <+: c :: rest ∧ Tokenless (c :: rest) ∧
        (c = '\\' ∨ c = '{' ∧ OversizedBounds rest) := by
  have hlex : lex brokenSource = .error ⟨.unexpected '{', 6, "{4294967296}".toList⟩ := by
    with_unfolding_all rfl
  obtain ⟨htiles, -, before, c, rest, heq, hbefore, -, hsnippet, hnone, hstart⟩ :=
    (lex_tiles brokenSource).2.1 _ hlex
  exact ⟨hlex, htiles, before, c, rest, heq, hbefore, hsnippet, hnone, hstart⟩

end PatternSampler
