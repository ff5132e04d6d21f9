import LoxLexer.Session
import LoxLexer.Proofs.Concatenation

/-!
# Scanning a text line by line

The lines of a text can be scanned one by one instead of the text as a whole, and carriage returns
at their ends can be left out, as long as no string goes on over a line feed: both ways scan or fail
together, and give tokens that differ in nothing but their lines.

## Key results

- `Cut.scan_append_carriageReturn`: a carriage return at the end of a text makes no difference
- `isTrimmed_trimLineEnd`: what is left of a line without its end
- `Cut.not_unbroken_of_rest_ne_nil`: a line that cannot be scanned breaks the text it begins
- `scansByLines_or_failsByLines`: the lines and the whole scan or fail together
-/

namespace LoxLexer

/-! ## Scans piece by piece -/

namespace Cut

/-- A carriage return at the end of a text is a blank or belongs to a comment, and it does not help
    a text that cannot be scanned. -/
theorem scan_append_carriageReturn (line : Nat) (a : List Char) :
    (startingAt line (a ++ ['\r'])).scan = (startingAt line a).scan := by
  -- Piece by piece. The carriage return is reached at the end of the last of them.
  induction line, a using induction_on with
  | stuck line a h =>
    cases a with
    | nil =>
      have hcr : startingAt line ['\r'] = (startingAt line []).cons ⟨line, .blank '\r'⟩ :=
        startingAt_text_append (p := .blank '\r') rfl trivial
      rw [List.nil_append, hcr, startingAt_of_none h]
      rfl
    | cons c body =>
      -- A carriage return closes no string, so the text stays stuck at the same character.
      have hmore : c = '"' → '"' ∉ ['\r'] := fun _ => by decide
      rw [startingAt_of_none h, startingAt_of_none (Piece.first?_append_eq_none h hmore)]
      by_cases hquote : c = '"'
      · subst hquote
        simp [scan, error?, List.count_append]
      · have herror : ∀ cs, (⟨[], line, c :: cs⟩ : Cut).error? =
            some (.unexpectedCharacter line c) := fun cs => error?_of_ne_quote rfl hquote
        simp only [scan, List.cons_append, herror]
  | piece line p rest hp hstops ih =>
    by_cases hend : ∃ body, p = .comment body ∧ rest = []
    · obtain ⟨body, rfl, rfl⟩ := hend
      -- The comment goes on to the carriage return.
      have hbody : '\n' ∉ body := hp
      have hp' : (Piece.comment (body ++ ['\r'])).WellFormed := by simp [Piece.WellFormed, hbody]
      have htext : (Piece.comment body).text ++ [] ++ ['\r'] =
          (Piece.comment (body ++ ['\r'])).text ++ [] := by simp [Piece.text]
      have hlf : (Piece.comment (body ++ ['\r'])).lineFeeds = (Piece.comment body).lineFeeds := by
        simp [Piece.lineFeeds, Piece.text]
      rw [htext, startingAt_text_append hp' (Piece.stops_nil _), startingAt_text_append hp hstops,
        scan_cons, scan_cons, hlf]
      rfl
    · -- Any other piece stops before the carriage return, and the rest goes on with it.
      have hstops' := hstops.append_blank (c := '\r') rfl
        (fun body hbody hrest => absurd ⟨body, hbody, hrest⟩ hend) []
      rw [List.append_assoc, startingAt_text_append hp hstops', startingAt_text_append hp hstops,
        scan_cons, scan_cons, ih]

theorem scan_append_carriageReturns (line : Nat) {tail : List Char} (h : ∀ c ∈ tail, c = '\r')
    (a : List Char) : (startingAt line (a ++ tail)).scan = (startingAt line a).scan := by
  induction tail generalizing a with
  | nil => rw [List.append_nil]
  | cons c tail ih =>
    obtain ⟨rfl, htail⟩ := List.forall_mem_cons.1 h
    -- The carriage returns are added one at a time, the first of them first.
    rw [List.append_cons, ih htail, scan_append_carriageReturn]

end Cut

/-! ## Strings and lines -/

/-- No string goes on over a line feed. -/
def Unbroken (tokens : List Token) : Prop :=
  ∀ t ∈ tokens, t.kind = .string → '\n' ∉ t.lexeme.toList

theorem unbroken_append {a b : List Token} : Unbroken (a ++ b) ↔ Unbroken a ∧ Unbroken b :=
  List.forall_mem_append

theorem unbroken_eof (line : Nat) : Unbroken [Token.eof line] := by
  intro t ht hkind
  rw [List.mem_singleton.1 ht] at hkind
  cases hkind

theorem unbroken_map_shift {k : Nat} {tokens : List Token} :
    Unbroken (tokens.map (Token.shift k)) ↔ Unbroken tokens :=
  List.forall_mem_map

namespace Cut

/-- The tokens of a text without line feeds have none either. -/
theorem not_mem_lexeme {line : Nat} {cs : List Char} (h : '\n' ∉ cs) :
    ∀ t ∈ (startingAt line cs).tokens, '\n' ∉ t.lexeme.toList := by
  intro t ht hmem
  obtain ⟨q, hq, htoken⟩ := List.mem_filterMap.1 ht
  obtain ⟨_, _, rfl⟩ := Option.map_eq_some_iff.1 htoken
  -- The characters of a token are among those of the text.
  have hcs := (cuts_startingAt line cs).flatten_append
  rw [← hcs, List.mem_append, List.mem_flatten] at h
  rw [String.toList_ofList] at hmem
  exact h (.inl ⟨q.piece.text, List.mem_map_of_mem hq, hmem⟩)

theorem unbroken_tokens {line : Nat} {cs : List Char} (h : '\n' ∉ cs) :
    Unbroken (startingAt line cs).tokens := fun t ht _ => not_mem_lexeme h t ht

/-- A line that cannot be scanned breaks the text it begins: the text cannot be scanned either, or a
    string goes on over the end of the line. -/
theorem not_unbroken_of_rest_ne_nil {line : Nat} {a : List Char}
    (h : (startingAt line a).rest ≠ []) (b : List Char) :
    ¬ ((startingAt line (a ++ '\n' :: b)).rest = [] ∧
      Unbroken (startingAt line (a ++ '\n' :: b)).tokens) := by
  obtain ⟨c, body, hrest⟩ := List.exists_cons_of_ne_nil h
  have hstuck := first?_rest line a
  rw [hrest] at hstuck
  -- What the line is stuck at begins the cut of what follows it.
  rw [startingAt_append_lineFeed, tokens_append, unbroken_append, hrest]
  generalize (startingAt line a).line = last
  rintro ⟨hnil, -, hunbroken⟩
  by_cases hclose : c = '"' ∧ '"' ∈ b
  · -- The string that the line opens is closed later, and holds the line feed.
    obtain ⟨rfl, hmem⟩ := hclose
    have hbody := Piece.not_mem_of_first?_quote_eq_none hstuck
    obtain ⟨front, back, rfl, hfront⟩ := List.eq_append_cons_of_mem hmem
    have hp : (Piece.string (body ++ '\n' :: front)).WellFormed := by
      simp [Piece.WellFormed, hbody, hfront]
    have htext : '"' :: body ++ '\n' :: (front ++ '"' :: back) =
        (Piece.string (body ++ '\n' :: front)).text ++ back := by simp [Piece.text]
    rw [htext, startingAt_text_append hp trivial] at hunbroken
    refine hunbroken _ List.mem_cons_self rfl ?_
    simp [Piece.text]
  · -- The text behind the line does not help, so it stays stuck in the line.
    have hmore : c = '"' → '"' ∉ '\n' :: b := by
      intro hc hmem
      exact hclose ⟨hc, by simpa using hmem⟩
    have hnone := Piece.first?_append_eq_none hstuck hmore
    rw [startingAt_of_none hnone] at hnil
    cases hnil

end Cut

/-! ## Lines and the whole -/

open Session (listing trimLineEnd)

theorem listing_append (a b : List Token) : listing (a ++ b) = listing a ++ listing b := by
  simp [listing, String.join_append]

/-- The lines of tokens do not show in a listing. -/
theorem listing_map_shift (k : Nat) (tokens : List Token) :
    listing (tokens.map (Token.shift k)) = listing tokens := by
  rw [listing, listing, List.map_map]
  rfl

/-- The scan of a line without the carriage returns and line feeds at its end. -/
def scanLine (line : List Char) : Except ScanError (List Token) :=
  scan (trimLineEnd (String.ofList line))

theorem scanLine_append_lineFeed (line : List Char) :
    scanLine (line ++ ['\n']) = scanLine line := by
  simp [scanLine, trimLineEnd]

/-- What is left of a line without the carriage returns and line feeds at its end. -/
structure IsTrimmed (line body : List Char) : Prop where
  eq_append : ∃ tail, line = body ++ tail ∧ ∀ c ∈ tail, c = '\n' ∨ c = '\r'
  ne_of_getLast? : ∀ c ∈ body.getLast?, c ≠ '\n' ∧ c ≠ '\r'

theorem isTrimmed_trimLineEnd (line : String) :
    IsTrimmed line.toList (trimLineEnd line).toList := by
  -- The ends are dropped from the reversed line, and so they are its longest such tail.
  let isEnd : Char → Bool := fun c => c == '\n' || c == '\r'
  have hbody : (trimLineEnd line).toList = (line.toList.reverse.dropWhile isEnd).reverse :=
    String.toList_ofList
  rw [hbody]
  constructor
  · refine ⟨(line.toList.reverse.takeWhile isEnd).reverse, ?_, ?_⟩
    · rw [← List.reverse_append, List.takeWhile_append_dropWhile, List.reverse_reverse]
    · intro c hc
      simpa [isEnd] using List.mem_takeWhile_imp (List.mem_reverse.1 hc)
  · intro c hc
    rw [List.getLast?_reverse] at hc
    have hend := List.head?_dropWhile_not isEnd line.toList.reverse
    rw [hc] at hend
    simpa [isEnd] using hend

/-- What is left out of a line that holds no line feed makes no difference. -/
theorem scanLine_of_not_mem {line : List Char} (h : '\n' ∉ line) :
    scanLine line = scan (String.ofList line) := by
  obtain ⟨tail, hline, htail⟩ := (isTrimmed_trimLineEnd (String.ofList line)).eq_append
  rw [String.toList_ofList] at hline
  -- Without line feeds only carriage returns are left out.
  have hreturns : ∀ c ∈ tail, c = '\r' := by
    intro c hc
    refine (htail c hc).resolve_left ?_
    rintro rfl
    exact h (hline ▸ List.mem_append_right _ hc)
  have hscan := Cut.scan_append_carriageReturns 0 hreturns (trimLineEnd (String.ofList line)).toList
  rw [← hline] at hscan
  rw [scan_ofList]
  exact hscan.symm

/-- A text scans line by line: each line scans to its part of the tokens, and the whole scans to
    tokens that are listed as the parts are, with no string over a line feed. -/
structure ScansByLines (cs : List Char) (parts : List (List Token)) : Prop where
  lines : (cs.linesBy (· = '\n')).map scanLine = parts.map fun part => .ok (part ++ [Token.eof 0])
  whole : ∃ tokens last, scan (String.ofList cs) = .ok (tokens ++ [Token.eof last]) ∧
    Unbroken tokens ∧ listing tokens = String.join (parts.map listing)

/-- Some line of the text fails, and the whole cannot be scanned without a string over a line
    feed. -/
structure FailsByLines (cs : List Char) : Prop where
  lines : ∃ line ∈ cs.linesBy (· = '\n'), ∃ e, scanLine line = .error e
  whole : ¬ ∃ tokens, scan (String.ofList cs) = .ok tokens ∧ Unbroken tokens

/-- A line by itself scans or fails as the text that it is. -/
theorem scansByLines_or_failsByLines_of_not_mem {cs : List Char} (h : '\n' ∉ cs) :
    (∃ parts, ScansByLines cs parts) ∨ FailsByLines cs := by
  by_cases hnil : cs = []
  · subst hnil
    have hscan : scan (String.ofList []) = .ok ([] ++ [Token.eof 0]) := by
      rw [scan_ofList, Cut.ofChars, Cut.startingAt_of_none rfl]
      rfl
    exact .inl ⟨[], rfl, [], 0, hscan, List.forall_mem_nil _, rfl⟩
  · -- The text is its only line.
    have hlines := List.linesBy_eq_singleton (p := (· = '\n')) hnil fun c hc hlf => h (hlf ▸ hc)
    cases hscan : scan (String.ofList cs) with
    | ok tokens =>
      obtain ⟨hrest, rfl⟩ := scan_ofList_eq_ok_iff.1 hscan
      have hline : (Cut.ofChars cs).line = 0 := by
        rw [Cut.line_ofChars hrest, List.count_eq_zero.2 h]
      rw [hline] at hscan
      refine .inl ⟨[(Cut.ofChars cs).tokens], ?_, _, 0, hscan, Cut.unbroken_tokens h, ?_⟩
      · rw [hlines, List.map_singleton, scanLine_of_not_mem h, hscan]
        rfl
      · simp
    | error e =>
      refine .inr ⟨⟨cs, by simp [hlines], e, by rw [scanLine_of_not_mem h, hscan]⟩, ?_⟩
      rintro ⟨tokens, htokens, -⟩
      rw [hscan] at htokens
      cases htokens

/-- The cut of a line that scans and of what follows it: the tokens of both, and what is left of the
    latter. -/
theorem Cut.tokens_and_rest_append_lineFeed {a : List Char} (h : (ofChars a).rest = [])
    (b : List Char) :
    (ofChars (a ++ '\n' :: b)).tokens =
        (ofChars a).tokens ++ (ofChars b).tokens.map (Token.shift (a.count '\n' + 1)) ∧
      (ofChars (a ++ '\n' :: b)).rest = (ofChars b).rest := by
  rw [ofChars_append_lineFeed b h, tokens_append, ← tokens_shift]
  exact ⟨rfl, rfl⟩

theorem linesBy_append_lineFeed {line : List Char} (h : '\n' ∉ line) (rest : List Char) :
    (line ++ '\n' :: rest).linesBy (· = '\n') =
      (line ++ ['\n']) :: rest.linesBy (· = '\n') :=
  List.linesBy_append_cons (fun c hc (hlf : c = '\n') => h (hlf ▸ hc)) rfl rest

/-- A line that scans puts its tokens in front of those of the following lines. -/
theorem ScansByLines.append_lineFeed {line rest : List Char} {parts : List (List Token)}
    (h : ScansByLines rest parts) (hline : '\n' ∉ line) (hrest : (Cut.ofChars line).rest = []) :
    ScansByLines (line ++ '\n' :: rest) ((Cut.ofChars line).tokens :: parts) := by
  obtain ⟨hlines, tokens, last, hscan, hunbroken, hlisting⟩ := h
  -- The line holds no line feed, so it ends on the line on which it begins.
  have hzero : (Cut.ofChars line).line = 0 := by
    rw [Cut.line_ofChars hrest, List.count_eq_zero.2 hline]
  have hscanLine : scanLine (line ++ ['\n']) =
      .ok ((Cut.ofChars line).tokens ++ [Token.eof 0]) := by
    rw [scanLine_append_lineFeed, scanLine_of_not_mem hline]
    exact scan_ofList_eq_ok_iff.2 ⟨hrest, by rw [hzero]⟩
  constructor
  · rw [linesBy_append_lineFeed hline, List.map_cons, hscanLine, hlines, List.map_cons]
  · obtain ⟨hnil, heq⟩ := scan_ofList_eq_ok_iff.1 hscan
    obtain ⟨rfl, -⟩ := List.append_inj' heq rfl
    -- The tokens of the rest are on later lines in the whole, but no listing shows lines.
    obtain ⟨htokens, hleft⟩ := Cut.tokens_and_rest_append_lineFeed hrest rest
    have hall := scan_ofList_eq_ok_iff.2 ⟨hleft.trans hnil, rfl⟩
    rw [htokens] at hall
    refine ⟨_, _, hall, ?_, ?_⟩
    · exact unbroken_append.2 ⟨Cut.unbroken_tokens hline, unbroken_map_shift.2 hunbroken⟩
    · rw [listing_append, listing_map_shift, hlisting, List.map_cons, String.join_cons]

/-- A line that scans does not mend a following line that fails. -/
theorem FailsByLines.append_lineFeed {line rest : List Char} (h : FailsByLines rest)
    (hline : '\n' ∉ line) (hrest : (Cut.ofChars line).rest = []) :
    FailsByLines (line ++ '\n' :: rest) := by
  obtain ⟨⟨other, hother, hfails⟩, hwhole⟩ := h
  constructor
  · rw [linesBy_append_lineFeed hline]
    exact ⟨other, List.mem_cons_of_mem _ hother, hfails⟩
  · -- If the whole scanned, the rest would scan to the last of its tokens.
    rintro ⟨tokens, hscan, hunbroken⟩
    obtain ⟨hnil, rfl⟩ := scan_ofList_eq_ok_iff.1 hscan
    obtain ⟨htokens, hleft⟩ := Cut.tokens_and_rest_append_lineFeed hrest rest
    rw [htokens, unbroken_append, unbroken_append, unbroken_map_shift] at hunbroken
    have hscanRest := scan_ofList_eq_ok_iff.2 ⟨hleft ▸ hnil, rfl⟩
    exact hwhole ⟨_, hscanRest, unbroken_append.2 ⟨hunbroken.1.2, unbroken_eof _⟩⟩

/-- A line that fails makes the text fail. -/
theorem failsByLines_of_rest_ne_nil {line : List Char} (hline : '\n' ∉ line)
    (hrest : (Cut.ofChars line).rest ≠ []) (rest : List Char) :
    FailsByLines (line ++ '\n' :: rest) := by
  constructor
  · -- The line that fails is the first one of the text.
    refine ⟨line ++ ['\n'], by simp [linesBy_append_lineFeed hline], ?_⟩
    rw [scanLine_append_lineFeed, scanLine_of_not_mem hline]
    cases hscan : scan (String.ofList line) with
    | ok tokens => exact absurd (scan_ofList_eq_ok_iff.1 hscan).1 hrest
    | error e => exact ⟨e, rfl⟩
  · rintro ⟨tokens, hscan, hunbroken⟩
    obtain ⟨hnil, rfl⟩ := scan_ofList_eq_ok_iff.1 hscan
    exact Cut.not_unbroken_of_rest_ne_nil hrest rest ⟨hnil, (unbroken_append.1 hunbroken).1⟩

/-- Every text scans line by line, or a line fails and the text as a whole fails or has a string
    over a line feed. -/
theorem scansByLines_or_failsByLines (cs : List Char) :
    (∃ parts, ScansByLines cs parts) ∨ FailsByLines cs := by
  induction cs using List.induction_by_lines '\n' with
  | last line hline => exact scansByLines_or_failsByLines_of_not_mem hline
  | line line rest hline ih =>
    -- If the first line scans, the other lines decide, and otherwise it decides.
    by_cases hrest : (Cut.ofChars line).rest = []
    · obtain ⟨parts, h⟩ | h := ih
      · exact .inl ⟨_, h.append_lineFeed hline hrest⟩
      · exact .inr (h.append_lineFeed hline hrest)
    · exact .inr (failsByLines_of_rest_ne_nil hline hrest rest)

end LoxLexer
