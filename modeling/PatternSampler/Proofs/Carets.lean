import PatternSampler.Diagnostic.Terminal
import PatternSampler.Proofs.ClassSyntax
import PatternSampler.Proofs.ErrorSpans
import PatternSampler.Proofs.Lines
/-!
# Carets under a fault

The plain rendering of an error names the line and the column of the fault and draws a caret for
each of its characters.  The carets are indented by the characters in front of the fault, which are
counted in the line as it is shown.  That line has lost its carriage returns at the end, so a fault
behind them would not be found in it, and bytes are counted instead.  Almost no fault stands there:
one that starts with a carriage return or a line feed is a range of a class (`PointsAt.lineEnd`), in
which a dash comes next.  What is left is a range from the line feed behind a carriage return
(`caretIndent`).  Main statement: `carets_of_parse_error`.
-/
set_option autoImplicit false

namespace PatternSampler

/-! ## Ends of lines in a pattern -/

/-- The characters that a line may end with. -/
def lineEnds : List Char := ['\r', '\n']

theorem scan_lineEnd {c : Char} (hc : c ∈ lineEnds) (cs : List Char) :
    scan c cs = .token (.literal c) 0 := by
  have hc : c = '\r' ∨ c = '\n' := by simpa [lineEnds] using hc
  rcases hc with rfl | rfl <;> rfl

/-- The end of a line is a lexeme of its own, a literal. -/
theorem Splits.eq_of_lineEnd {text : List Char} {lexemes : List Lexeme} (h : Splits text lexemes) :
    ∀ lx ∈ lexemes, ∀ c ∈ lineEnds, lx.text.head? = some c →
      lx.token = .literal c ∧ lx.text = [c] := by
  induction h with
  | nil => simp
  | cons hscan _ ih =>
    refine List.forall_mem_cons.mpr ⟨?_, ih⟩
    intro c hc hhead
    obtain rfl := Option.some.inj hhead
    rw [scan_lineEnd hc] at hscan
    obtain ⟨rfl, rfl⟩ := Scan.token.inj hscan
    exact ⟨rfl, rfl⟩

/-- A dash is a lexeme of one character. -/
theorem Splits.text_of_dash {text : List Char} {lexemes : List Lexeme} (h : Splits text lexemes) :
    ∀ lx ∈ lexemes, lx.token = .dash → lx.text = ['-'] := by
  induction h with
  | nil => simp
  | cons hscan _ ih =>
    refine List.forall_mem_cons.mpr ⟨?_, ih⟩
    rintro rfl
    obtain ⟨hmark, htext⟩ := (rule_of_scan hscan).2.marked _ rfl '-' (by decide)
    exact htext (hmark.mpr rfl) (by decide)

/-! ## What an error points at -/

/-- The error points at the piece, which stands behind `before`.  A piece that starts with the end
of a line is a range of a class. -/
structure PatternError.PointsAt (e : PatternError) (before piece : List Char) : Prop where
  labels : (Diagnostic.ofPatternError e).labels =
    [⟨⟨Text.byteLength before, Text.byteLength (before ++ piece)⟩, "here", true⟩]
  ne_nil : piece ≠ []
  lineEnd : ∀ c ∈ lineEnds, piece.head? = some c →
    (∃ more, piece = c :: '-' :: more) ∧
      ∃ position span, e = .parse ⟨.invalidRange piece, position, span⟩

/-- A piece starts as the lexeme does at which it stands. -/
theorem PieceAt.head?_eq {lexemes rest : List Lexeme} {span : Span} {lx : Lexeme}
    {piece : List Char} (h : PieceAt lexemes span lx rest piece) (htext : lx.text ≠ []) :
    piece.head? = lx.text.head? := by
  obtain ⟨c, cs, hcs⟩ := List.exists_cons_of_ne_nil h.ne_nil
  obtain ⟨d, ds, hds⟩ := List.exists_cons_of_ne_nil htext
  have hprefix := h.isPrefix
  rw [hcs, hds, List.cons_append, List.cons_prefix_cons] at hprefix
  rw [hcs, hds, hprefix.1, List.head?_cons, List.head?_cons]

theorem pointsAt_of_lex_error {source : List Char} {e : LexError} (h : lex source = .error e) :
    ∃ before piece after, source = before ++ (piece ++ after) ∧
      (PatternError.lex e).PointsAt before piece := by
  obtain ⟨upTo, c, cs, extra, heq, -, hfault, rfl⟩ := exists_fault_of_lexFrom h [] rfl
  have hne : c :: cs.take extra ≠ [] := List.cons_ne_nil _ _
  have hsplit : source = upTo ++ (c :: cs.take extra ++ cs.drop extra) := by
    rw [List.cons_append, List.take_append_drop]
    exact heq
  refine ⟨upTo, c :: cs.take extra, cs.drop extra, hsplit, ?_, hne, ?_⟩
  · rw [Diagnostic.ofPatternError, labels_ofLexError, max_eq_right (Text.byteLength_pos hne),
      ← Text.byteLength_append]
  · intro d hd hhead
    obtain rfl := Option.some.inj hhead
    rw [scan_lineEnd hd] at hfault
    simp at hfault

theorem pointsAt_of_parse_error {source : List Char} {lexemes : List Lexeme}
    (hlex : lex source = .ok lexemes) {e : ParseError} (h : parseLexemes lexemes = .error e) :
    ∃ before piece after, source = before ++ (piece ++ after) ∧
      (PatternError.parse e).PointsAt before piece := by
  have hremain := remain_of_lex hlex
  have hsplits := splits_of_lexFrom hlex
  obtain ⟨lx, rest, piece, hpiece, hfault⟩ := (faultSpan_of_parseLexemes h).exists_piece hremain
  have hlx : lx ∈ lexemes := hpiece.suffix.subset List.mem_cons_self
  have hrest := hremain.suffix hpiece.suffix
  obtain ⟨before, after, heq, hstart⟩ := hrest.exists_prefix hpiece.isPrefix
  refine ⟨before, piece, after, heq, ?_, hpiece.ne_nil, ?_⟩
  · rw [Diagnostic.ofPatternError, labels_ofParseError, hpiece.span_eq, ← hstart,
      Text.byteLength_append]
  · intro c hc hpieceHead
    rw [hpiece.head?_eq hrest.text_ne_nil] at hpieceHead
    obtain ⟨htoken, htext⟩ := hsplits.eq_of_lineEnd lx hlx c hc hpieceHead
    rcases hfault with hsyntax | ⟨hcause, dash, hdashMem, hdash, hrange⟩
    · rw [htoken] at hsyntax
      rcases hsyntax with rfl | rfl <;> exact absurd hc (by decide)
    · rw [htext, hsplits.text_of_dash dash hdashMem hdash] at hrange
      obtain ⟨more, hmore⟩ := hrange
      refine ⟨⟨more, hmore.symm⟩, e.position, e.span, ?_⟩
      rw [← hcause]

theorem exists_pointsAt {source : List Char} {e : PatternError} (h : parse source = .error e) :
    ∃ before piece after, source = before ++ (piece ++ after) ∧ e.PointsAt before piece := by
  unfold parse at h
  split at h
  · obtain rfl := Except.error.inj h
    exact pointsAt_of_lex_error ‹_›
  · split at h
    · obtain rfl := Except.error.inj h
      exact pointsAt_of_parse_error ‹_› ‹_›
    · simp at h

/-! ## What an excerpt reads -/

namespace Terminal

/-- What an excerpt reads: the place of the fault, the line, and the carets under it. -/
def excerptText (place : Text.Place) (shown : List Char) (indent carets : Nat) : String :=
  "  --> " ++ Text.decimal place.line ++ ":" ++ Text.decimal place.column ++ "\n"
    ++ blanks (Text.decimal place.line).length ++ " |\n"
    ++ Text.decimal place.line ++ " | " ++ String.ofList shown ++ "\n"
    ++ blanks (Text.decimal place.line).length ++ " | "
    ++ blanks indent ++ String.ofList (List.replicate carets '^') ++ " here\n"
    ++ blanks (Text.decimal place.line).length ++ " |\n"

theorem length_blanks (n : Nat) : (blanks n).length = n := by
  rw [blanks, String.length_ofList, List.length_replicate]

/-- The indent is read off an excerpt. -/
theorem indent_eq_of_excerptText_eq {place : Text.Place} {shown : List Char}
    {indent indent' carets : Nat}
    (h : excerptText place shown indent carets = excerptText place shown indent' carets) :
    indent = indent' := by
  have hlength := congrArg String.length h
  unfold excerptText at hlength
  simp only [String.length_append, length_blanks] at hlength
  omega

theorem join_cons (f : Fragment) (fs : List Fragment) :
    join false (f :: fs) = f.text ++ join false fs := by
  simp [join, String.join_cons]

theorem join_append (fs gs : List Fragment) :
    join false (fs ++ gs) = join false fs ++ join false gs := by
  simp [join]

theorem join_excerpt {source : List Char} {span : Span} {place : Text.Place} {shown : List Char}
    (hplace : (Text.LineIndex.ofSource source).place span.start = place)
    (hshown : (Text.LineIndex.ofSource source).lineText source place.line = shown) :
    join false (excerpt source ⟨span, "here", true⟩) =
      excerptText place shown (indentOf shown place.column) (caretCount source span) := by
  have hmessage : "here" ≠ "" := by decide
  unfold excerpt excerptText
  simp only [hplace, hshown, if_neg hmessage, List.cons_append, List.nil_append, join_cons, plain,
    styled]
  apply String.toList_inj.mp
  simp [join]

/-! ## Carets and their indent -/

variable {before piece : List Char}

/-- A span that is a piece of the source has a caret for each character. -/
theorem caretCount_of_eq (before after : List Char) (hne : piece ≠ []) :
    caretCount (before ++ (piece ++ after))
        ⟨Text.byteLength before, Text.byteLength (before ++ piece)⟩ = piece.length := by
  have hslice : Text.slice? (Text.byteLength before) (Text.byteLength (before ++ piece))
      (before ++ (piece ++ after)) = some piece :=
    Text.slice?_eq_some_iff.mpr ⟨before, after, rfl, rfl, rfl⟩
  rw [caretCount]
  simp only [hslice]
  exact max_eq_right (List.length_pos_iff.mpr hne)

/-- The characters of the part of a line in front of a fault, or its bytes where the fault starts
with the line feed behind a carriage return. -/
def caretIndent (line piece : List Char) : Nat :=
  if line.getLast? = some '\r' ∧ piece.head? = some '\n' then Text.byteLength line
  else line.length

/-- In front of a column of the text that is shown, characters are counted. -/
theorem indentOf_append (line rest : List Char) :
    indentOf (line ++ rest) (Text.byteLength line + 1) = line.length := by
  rw [indentOf, Nat.add_sub_cancel, Text.splitAtByte?_append]

/-- In front of a column behind the text that is shown, bytes are counted. -/
theorem indentOf_of_lt {shown : List Char} {n : Nat} (h : Text.byteLength shown < n) :
    indentOf shown (n + 1) = n := by
  rw [indentOf, Nat.add_sub_cancel]
  split
  · rename_i upTo rest hsplit
    obtain ⟨rfl, rfl⟩ := Text.splitAtByte?_eq_some_iff.mp hsplit
    rw [Text.byteLength_append] at h
    omega
  · rfl

/-- A fault that starts with a line feed is behind all that is shown of its line. -/
theorem indentOf_lineFeed (line : List Char) :
    indentOf (Text.trimEnd (· == '\r') line) (Text.byteLength line + 1) =
      if line.getLast? = some '\r' then Text.byteLength line else line.length := by
  rcases List.eq_nil_or_concat' line with rfl | ⟨init, c, rfl⟩
  · rfl
  rw [List.getLast?_concat]
  by_cases hc : c = '\r'
  · -- what is shown ends before the carriage return
    subst hc
    have htrim : Text.trimEnd (· == '\r') (init ++ ['\r']) = Text.trimEnd (· == '\r') init := by
      simp only [Text.trimEnd_eq_rdropWhile]
      exact List.rdropWhile_concat_pos _ _ _ rfl
    obtain ⟨returns, hreturns⟩ := List.rdropWhile_prefix (· == '\r') init
    rw [← Text.trimEnd_eq_rdropWhile] at hreturns
    have hlength := congrArg Text.byteLength hreturns
    have hpos := Text.byteLength_pos (List.cons_ne_nil '\r' [])
    rw [htrim, if_pos rfl]
    apply indentOf_of_lt
    simp only [Text.byteLength_append] at hlength ⊢
    omega
  · have hshown : Text.trimEnd (· == '\r') (init ++ [c]) = init ++ [c] :=
      Text.trimEnd_append_cons (by simpa using hc) init []
    have hindent := indentOf_append (init ++ [c]) []
    rw [List.append_nil] at hindent
    rw [hshown, hindent, if_neg (by simpa using hc)]

/-- The carets' indent, in the text that is shown for the line of a fault. -/
theorem indentOf_shown {e : PatternError} (h : e.PointsAt before piece) (line after : List Char) :
    indentOf (Text.trimEnd (· == '\r') (line ++ (piece ++ after).takeWhile (· != '\n')))
        (Text.byteLength line + 1) = caretIndent line piece := by
  obtain ⟨c, cs, rfl⟩ := List.exists_cons_of_ne_nil h.ne_nil
  rw [caretIndent, List.head?_cons]
  by_cases hfeed : c = '\n'
  · subst hfeed
    simpa using indentOf_lineFeed line
  rw [if_neg (fun hends => hfeed (Option.some.inj hends.2)), List.cons_append,
    List.takeWhile_cons_of_pos (by simpa using hfeed)]
  by_cases hreturn : c = '\r'
  · -- the dash of the range keeps the carriage return
    subst hreturn
    obtain ⟨⟨more, hmore⟩, -⟩ := h.lineEnd '\r' (by decide) rfl
    obtain rfl := List.tail_eq_of_cons_eq hmore
    have hkept : ∀ ys, Text.trimEnd (· == '\r') (line ++ ['\r'] ++ '-' :: ys) =
        line ++ ['\r'] ++ '-' :: Text.trimEnd (· == '\r') ys :=
      Text.trimEnd_append_cons (by decide) _
    simp only [List.append_assoc, List.singleton_append] at hkept
    rw [List.cons_append, List.takeWhile_cons_of_pos (by decide), hkept]
    exact indentOf_append _ _
  · rw [Text.trimEnd_append_cons (by simpa using hreturn)]
    exact indentOf_append _ _

/-- The indent differs from the number of characters only where the fault starts with the line feed
behind a carriage return and one of those characters has several bytes. -/
theorem caretIndent_ne_iff {line piece : List Char} :
    caretIndent line piece ≠ line.length ↔
      line.getLast? = some '\r' ∧ piece.head? = some '\n' ∧ ∃ c ∈ line, c.utf8Size ≠ 1 := by
  rw [caretIndent]
  split
  · rename_i hends
    rw [ne_eq, Text.byteLength_eq_length_iff]
    simp [hends]
  · rename_i hends
    simp only [ne_eq, not_true_eq_false, false_iff]
    exact fun h => hends ⟨h.1, h.2.1⟩

/-! ## Carets of an error -/

/-- How an error reads: the piece is its fault, behind the part of a line and the whole lines before
that; and the plain rendering names the line, shows it, and draws a caret for each character of the
piece, behind the indent. -/
structure Rendering (source : List Char) (e : PatternError) (earlier line piece after : List Char)
    (indent : Nat) : Prop where
  cut : source = earlier ++ (line ++ (piece ++ after))
  wholeLines : Text.WholeLines earlier
  not_mem : '\n' ∉ line
  labels : (Diagnostic.ofPatternError e).labels =
    [⟨⟨Text.byteLength (earlier ++ line), Text.byteLength (earlier ++ line ++ piece)⟩, "here",
      true⟩]
  text : render false ((Diagnostic.ofPatternError e).withSource (String.ofList source)) =
    join false (headline (Diagnostic.ofPatternError e))
      ++ excerptText ⟨earlier.count '\n' + 1, Text.byteLength line + 1⟩
          (Text.trimEnd (· == '\r') (line ++ (piece ++ after).takeWhile (· != '\n')))
          indent piece.length
      ++ join false (remarks (Diagnostic.ofPatternError e))

section

variable {source earlier line piece after : List Char} {e : PatternError}

theorem rendering_of_pointsAt (h : e.PointsAt (earlier ++ line) piece)
    (hcut : source = earlier ++ (line ++ (piece ++ after))) (hearlier : Text.WholeLines earlier)
    (hline : '\n' ∉ line) :
    Rendering source e earlier line piece after (caretIndent line piece) := by
  refine ⟨hcut, hearlier, hline, h.labels, ?_⟩
  have hplace := Text.place_of_eq hearlier hline (piece ++ after)
  have hshown := Text.lineText_of_eq hearlier hline (piece ++ after)
  have hcarets := caretCount_of_eq (earlier ++ line) after h.ne_nil
  rw [← hcut] at hplace hshown
  rw [List.append_assoc, ← hcut] at hcarets
  have hprimary : ((Diagnostic.ofPatternError e).withSource (String.ofList source)).primary? =
      some ⟨⟨Text.byteLength (earlier ++ line), Text.byteLength (earlier ++ line ++ piece)⟩, "here",
        true⟩ := by
    simp [Diagnostic.primary?, Diagnostic.withSource, h.labels]
  rw [render, fragments, hprimary]
  simp only [Diagnostic.withSource, String.toList_ofList]
  rw [join_append, join_append, join_excerpt hplace hshown, indentOf_shown h, hcarets]
  rfl

/-- An error reads in one way only. -/
theorem Rendering.unique {earlier' line' piece' after' : List Char} {indent indent' : Nat}
    (h : Rendering source e earlier line piece after indent)
    (h' : Rendering source e earlier' line' piece' after' indent') :
    line = line' ∧ piece = piece' ∧ indent = indent' := by
  have hspan := h.labels.symm.trans h'.labels
  simp only [List.cons.injEq, Label.mk.injEq, Span.mk.injEq, and_true] at hspan
  obtain ⟨hstart, hstop⟩ := hspan
  -- the ends of the span are the ends of the piece
  have hcuts := h.cut.symm.trans h'.cut
  rw [← List.append_assoc, ← List.append_assoc earlier'] at hcuts
  obtain ⟨hbefore, hrest⟩ := Text.append_inj_of_byteLength hcuts hstart
  obtain ⟨rfl, rfl⟩ := h.wholeLines.append_inj h'.wholeLines h.not_mem h'.not_mem hbefore
  rw [Text.byteLength_append _ piece, Text.byteLength_append _ piece'] at hstop
  obtain ⟨rfl, rfl⟩ := Text.append_inj_of_byteLength hrest (Nat.add_left_cancel hstop)
  have htext := h.text.symm.trans h'.text
  rw [String.append_left_inj, String.append_right_inj] at htext
  exact ⟨rfl, rfl, indent_eq_of_excerptText_eq htext⟩

end

/-- The plain rendering of an error names the line of the fault, and draws a caret under each of its
characters, indented by the characters in front of it in the line.  The indent is wider only for a
range of a class from the line feed behind a carriage return, in a line with characters of several
bytes. -/
theorem carets_of_parse_error {source : List Char} {e : PatternError}
    (h : parse source = .error e) :
    ∃ earlier line piece after, piece ≠ [] ∧
      Rendering source e earlier line piece after (caretIndent line piece) ∧
      (caretIndent line piece ≠ line.length ↔
        line.getLast? = some '\r' ∧ piece.head? = some '\n' ∧ ∃ c ∈ line, c.utf8Size ≠ 1) ∧
      (piece.head? = some '\n' → ∃ more position span,
        piece = '\n' :: '-' :: more ∧ e = .parse ⟨.invalidRange piece, position, span⟩) := by
  obtain ⟨before, piece, after, hcut, hpoints⟩ := exists_pointsAt h
  obtain ⟨earlier, line, rfl, hearlier, hline⟩ := Text.exists_line before
  rw [List.append_assoc] at hcut
  refine ⟨earlier, line, piece, after, hpoints.ne_nil,
    rendering_of_pointsAt hpoints hcut hearlier hline, caretIndent_ne_iff, ?_⟩
  intro hfeed
  obtain ⟨⟨more, hmore⟩, position, span, he⟩ := hpoints.lineEnd '\n' (by decide) hfeed
  exact ⟨more, position, span, hmore, he⟩

/-- A second line in which a group is closed that is not open. -/
def unmatchedSource : List Char := "é\r\nü)".toList

theorem carets_of_unmatchedSource :
    parse unmatchedSource = .error (.parse ⟨.unmatchedClose, 4, ⟨6, 7⟩⟩) ∧
      ∃ earlier line piece after, piece ≠ [] ∧
        Rendering unmatchedSource (.parse ⟨.unmatchedClose, 4, ⟨6, 7⟩⟩) earlier line piece after
          (caretIndent line piece) := by
  have hparse : parse unmatchedSource = .error (.parse ⟨.unmatchedClose, 4, ⟨6, 7⟩⟩) := by
    with_unfolding_all rfl
  obtain ⟨earlier, line, piece, after, hne, hrendering, -⟩ := carets_of_parse_error hparse
  exact ⟨hparse, earlier, line, piece, after, hne, hrendering⟩

/-- A range from the line feed behind a carriage return to a tab, which comes before it. -/
def lineFeedRange : List Char := "[é\r\n-\t]".toList

/-- There the carets are indented by the four bytes in front of the range, which are three
characters. -/
theorem not_rendering_lineFeedRange :
    parse lineFeedRange = .error (.parse ⟨.invalidRange "\n-\t".toList, 6, ⟨4, 7⟩⟩) ∧
      ¬ ∃ earlier line piece after,
        Rendering lineFeedRange (.parse ⟨.invalidRange "\n-\t".toList, 6, ⟨4, 7⟩⟩) earlier line
          piece after line.length := by
  have hpoints : (PatternError.parse ⟨.invalidRange "\n-\t".toList, 6, ⟨4, 7⟩⟩).PointsAt
      ([] ++ "[é\r".toList) "\n-\t".toList := by
    refine ⟨labels_ofParseError _, by decide, ?_⟩
    intro c _ hhead
    obtain rfl := Option.some.inj hhead
    exact ⟨⟨['\t'], rfl⟩, _, _, rfl⟩
  have hrendering : Rendering lineFeedRange (.parse ⟨.invalidRange "\n-\t".toList, 6, ⟨4, 7⟩⟩) []
      "[é\r".toList "\n-\t".toList [']'] 4 :=
    rendering_of_pointsAt hpoints rfl (.inl rfl) (by decide)
  refine ⟨by with_unfolding_all rfl, ?_⟩
  rintro ⟨earlier, line, piece, after, hcharacters⟩
  obtain ⟨rfl, rfl, hindent⟩ := hrendering.unique hcharacters
  exact absurd hindent (by decide)

end Terminal

end PatternSampler
