import LoxLexer.Proofs.Acceptance
import LoxLexer.Proofs.Faults

/-!
# The log of a scan

A scan that fails gives no tokens, but its log tells which tokens were found before the fault: they
are the tokens of the source that ends there. Nothing of this source is cut otherwise than in the
whole source, since an item that stops before a text stops before each beginning of the text.

## Key results

- `Piece.Stops.of_append`: a piece that stops before a text stops before its beginnings
- `Cut.startingAt_flatten_texts`: the items before a fault are cut as they are without the fault
- `scanLog_mirrors_scan`: what a scan logs
-/

namespace LoxLexer

open Grammar (Cuts Stuck)

/-! ## Records and faults -/

/-- A record as it is written: its level, who wrote it, and its text. -/
def LogRecord.written (r : LogRecord) : LogLevel × LogOrigin × String :=
  (r.level, r.origin, r.message)

/-- The record of a token that was found, as it is written. -/
def tokenWritten (t : Token) : LogLevel × LogOrigin × String :=
  (.trace, .scanner, "token " ++ t.display)

/-- The error is about the character at a position. The source before it is cut into longest items,
    and none follows: the character is unexpected, or a quote that opens a string without an end. -/
structure FaultAt (cs : List Char) (e : ScanError) (position : Nat) : Prop where
  exists_cuts : ∃ items, Cuts cs items (cs.drop position)
  stuck : Stuck (cs.drop position)
  unexpected : ∀ line c, e = .unexpectedCharacter line c → cs[position]? = some c
  opened : ∀ line, e = .unterminatedString line →
    cs[position]? = some '"' ∧ '"' ∉ cs.drop (position + 1)

/-! ## The source before a fault -/

/-- A numeral looks at two characters at most, and what it does not find it does not find in less
    text. -/
theorem Numeral.Stops.of_append {n : Numeral} {a b : List Char} (h : n.Stops (a ++ b)) :
    n.Stops a := by
  constructor
  -- The character that the numeral looks at is in the shorter text, or there is none.
  · intro c hc
    exact h.head c (List.mem_head?_append_of_mem_head? hc)
  · intro hfraction more hmore c hc
    subst hmore
    exact h.point hfraction (more ++ b) rfl c (List.mem_head?_append_of_mem_head? hc)

theorem Symbol.Stops.of_append {s : Symbol} {a b : List Char} (h : s.Stops (a ++ b)) :
    s.Stops a := by
  -- If nothing is left, there is no character to extend the symbol.
  cases a with
  | nil => cases s <;> simp [Stops]
  | cons c a => cases s <;> exact h

/-- A piece that stops before a text stops before its beginnings. -/
theorem Piece.Stops.of_append {p : Piece} {a b : List Char} (h : p.Stops (a ++ b)) : p.Stops a := by
  cases p with
  | blank c | string body => trivial
  | symbol s => exact Symbol.Stops.of_append h
  | number n => exact Numeral.Stops.of_append h
  | comment body | word letters =>
    intro c hc
    exact h c (List.mem_head?_append_of_mem_head? hc)

/-- The text of the items of a cut is cut into these items, and nothing is left. -/
theorem Cut.startingAt_flatten_texts (line : Nat) (cs : List Char) :
    startingAt line (startingAt line cs).texts.flatten =
      { startingAt line cs with rest := [] } := by
  induction line, cs using induction_on with
  | stuck line cs h =>
    rw [startingAt_of_none h]
    exact startingAt_of_none rfl
  | piece line p rest hp hstops ih =>
    -- The items behind the piece are the beginning of what the piece stops before.
    rw [← (cuts_startingAt (line + p.lineFeeds) rest).flatten_append] at hstops
    have hstops' := hstops
    rw [(cuts_startingAt _ rest).flatten_append] at hstops'
    rw [startingAt_text_append hp hstops']
    show startingAt line (p.text ++ (startingAt (line + p.lineFeeds) rest).texts.flatten) = _
    rw [startingAt_text_append hp hstops.of_append, ih]
    rfl

theorem Cut.ofChars_flatten_texts (cs : List Char) :
    ofChars (ofChars cs).texts.flatten = { ofChars cs with rest := [] } :=
  startingAt_flatten_texts 0 cs

/-! ## Where the fault is -/

theorem drop_length_texts (cs : List Char) :
    cs.drop (Cut.ofChars cs).texts.flatten.length = (Cut.ofChars cs).rest := by
  have hcuts : Cuts cs (Cut.ofChars cs).texts (Cut.ofChars cs).rest := Cut.cuts_startingAt 0 cs
  have hdrop : ((Cut.ofChars cs).texts.flatten ++ (Cut.ofChars cs).rest).drop
      -- The items and the rest are the source, and the position is where the items end.
      (Cut.ofChars cs).texts.flatten.length = (Cut.ofChars cs).rest := List.drop_left
  rwa [hcuts.flatten_append] at hdrop

theorem take_length_texts (cs : List Char) :
    cs.take (Cut.ofChars cs).texts.flatten.length = (Cut.ofChars cs).texts.flatten := by
  have hcuts : Cuts cs (Cut.ofChars cs).texts (Cut.ofChars cs).rest := Cut.cuts_startingAt 0 cs
  have htake : ((Cut.ofChars cs).texts.flatten ++ (Cut.ofChars cs).rest).take
      (Cut.ofChars cs).texts.flatten.length = (Cut.ofChars cs).texts.flatten := List.take_left
  rwa [hcuts.flatten_append] at htake

/-- A source that cannot be scanned has its fault behind the items that are cut off. -/
theorem faultAt_length_texts {source : String} {e : ScanError} (h : scan source = .error e) :
    FaultAt source.toList e (Cut.ofChars source.toList).texts.flatten.length := by
  have herror := Cut.scan_eq_error_iff.1 h
  have hnone : Piece.first? (Cut.ofChars source.toList).rest = none := Cut.first?_rest 0 _
  have hcuts : Cuts source.toList (Cut.ofChars source.toList).texts
      (Cut.ofChars source.toList).rest := Cut.cuts_startingAt 0 _
  have hdrop : source.toList.drop (Cut.ofChars source.toList).texts.flatten.length =
      (Cut.ofChars source.toList).rest := drop_length_texts _
  have hne : (Cut.ofChars source.toList).rest ≠ [] := by
    -- With nothing left there would be no error.
    intro hnil
    cases herror.symm.trans (Cut.error?_eq_none_iff.2 hnil)
  rw [← hdrop] at hcuts hnone hne
  refine ⟨⟨_, hcuts⟩, ⟨hne, Grammar.first?_eq_none_iff.1 hnone⟩, ?_, ?_⟩
  · rintro line c rfl
    obtain ⟨-, -, body, hrest⟩ := Cut.exists_rest_of_unexpectedCharacter herror
    rw [← List.head?_drop, hdrop, hrest]
    rfl
  · rintro line rfl
    obtain ⟨body, hrest, -⟩ := Cut.exists_rest_of_unterminatedString herror
    -- What is left begins with the quote, and nothing begins there only if it is never closed.
    rw [hdrop, hrest] at hnone
    rw [← List.head?_drop, ← List.tail_drop, hdrop, hrest]
    exact ⟨rfl, Piece.not_mem_of_first?_quote_eq_none hnone⟩

/-- A source has its fault in one place. -/
theorem FaultAt.eq_length_texts {cs : List Char} {e : ScanError} {position : Nat}
    (h : FaultAt cs e position) : position = (Cut.ofChars cs).texts.flatten.length := by
  obtain ⟨items, hcuts⟩ := h.exists_cuts
  have hnone := Grammar.first?_eq_none_iff.2 h.stuck.2
  have htexts : (Cut.ofChars cs).texts = items := (Cut.eq_of_cuts hcuts hnone 0).1
  -- The items before the fault are the texts of the cut, and they are as long as the position.
  have hlength := congrArg List.length hcuts.flatten_append
  have hlt : position < cs.length := Nat.lt_of_not_le (mt List.drop_eq_nil_iff.2 h.stuck.1)
  rw [List.length_append, List.length_drop] at hlength
  rw [htexts]
  omega

/-! ## The log -/

/-- The tokens before the end of the input. -/
def beforeEnd (tokens : List Token) : List Token := tokens.filter (·.kind ≠ .eof)

namespace LogRecord

theorem atLeast_append (level : LogLevel) (a b : List LogRecord) :
    atLeast level (a ++ b) = atLeast level a ++ atLeast level b :=
  List.filter_append ..

/-- Records of one level are read all or not at all. -/
theorem atLeast_of_forall_level {level own : LogLevel} {records : List LogRecord}
    (h : ∀ r ∈ records, r.level = own) :
    atLeast level records = if own.rank ≤ level.rank then records else [] := by
  by_cases hrank : own.rank ≤ level.rank
  -- Comparing a level with that of the records decides for all of them at once.
  · rw [if_pos hrank]
    exact List.filter_eq_self.2 fun r hr => decide_eq_true (h r hr ▸ hrank)
  · rw [if_neg hrank]
    exact List.filter_eq_nil_iff.2 fun r hr => by simpa [h r hr] using hrank

end LogRecord

namespace Cut

/-- Only the token for the end of the input is not among the tokens of a cut. -/
theorem beforeEnd_tokens_append (cs : List Char) (last : Nat) :
    beforeEnd ((ofChars cs).tokens ++ [Token.eof last]) = (ofChars cs).tokens := by
  have hkind : ∀ t ∈ (ofChars cs).tokens, t.kind ≠ .eof :=
    Grammar.kind_ne_eof_of_forall₂_spells (forall₂_spells (wellFormed_of_mem_pieces 0 cs))
  have hend : beforeEnd [Token.eof last] = [] := rfl
  rw [beforeEnd, List.filter_append, ← beforeEnd, ← beforeEnd, hend, List.append_nil]
  exact List.filter_eq_self.2 fun t ht => decide_eq_true (hkind t ht)

/-- The records of a cut, as they are written. -/
theorem map_written_log (c : Cut) :
    c.log.map LogRecord.written = c.tokens.map tokenWritten ++ [c.summary.written] := by
  rw [log, List.map_append, List.map_map]
  rfl

/-- Tokens are logged at the lowest level, and how the scan ended one level above. -/
theorem atLeast_log (c : Cut) (level : LogLevel) :
    LogRecord.atLeast level c.log = match level with
      | .trace => c.log
      | .debug => [c.summary]
      | .error | .warn | .info => [] := by
  have htokens : ∀ r ∈ c.tokens.map LogRecord.token, r.level = .trace :=
    List.forall_mem_map.2 fun _ _ => rfl
  have hsummary : ∀ r ∈ [c.summary], r.level = .debug := by
    -- Both endings are logged at one level.
    rw [List.forall_mem_singleton, summary]
    cases c.error? <;> rfl
  rw [log, LogRecord.atLeast_append, LogRecord.atLeast_of_forall_level htokens,
    LogRecord.atLeast_of_forall_level hsummary]
  cases level <;> simp [LogLevel.rank]

end Cut

/-- The log of a scan holds the tokens that were found, each as it is listed, and then one record of
    how the scan ended. If it succeeded, the tokens are all but the one for the end of the input,
    and the record counts this token and the lines. If it failed, the source before the fault can be
    scanned, the tokens are those of this source, and the record counts them and shows the error. A
    reader that leaves out the tokens reads the last record alone, and one that asks for anything
    more severe reads nothing. -/
theorem scanLog_mirrors_scan (source : String) :
    (∀ tokens, scan source = .ok tokens →
      (scanLog source).map LogRecord.written = (beforeEnd tokens).map tokenWritten ++
        [(.debug, .scanner, "scanned " ++ toString tokens.length ++ " tokens over " ++
          toString (source.toList.count '\n' + 1) ++ " lines")]) ∧
    (∀ e, scan source = .error e → ∃ position tokens,
      (∀ position', FaultAt source.toList e position' ↔ position' = position) ∧
      scan (String.ofList (source.toList.take position)) = .ok tokens ∧
      (scanLog source).map LogRecord.written = (beforeEnd tokens).map tokenWritten ++
        [(.debug, .scanner, "scan aborted after " ++ toString (beforeEnd tokens).length ++
          " tokens: " ++ e.display)]) ∧
    ∀ level, LogRecord.atLeast level (scanLog source) = match level with
      | .trace => scanLog source
      | .debug => (scanLog source).getLast?.toList
      | .error | .warn | .info => [] := by
  refine ⟨?_, ?_, ?_⟩
  -- The end of the input is counted with the tokens, but it is not logged as one.
  · intro tokens hscan
    obtain ⟨hrest, rfl⟩ := Cut.scan_eq_ok_iff.1 hscan
    rw [scanLog, Cut.map_written_log, Cut.beforeEnd_tokens_append, Cut.summary,
      Cut.error?_eq_none_iff.2 hrest, List.length_append, Cut.line_ofChars hrest]
    rfl
  · intro e hscan
    refine ⟨(Cut.ofChars source.toList).texts.flatten.length,
      (Cut.ofChars source.toList).tokens ++ [Token.eof (Cut.ofChars source.toList).line],
      ?_, ?_, ?_⟩
    · intro position
      exact ⟨FaultAt.eq_length_texts, fun h => h ▸ faultAt_length_texts hscan⟩
    -- What stands before the fault is the text of the items, which are cut again with nothing left.
    · rw [take_length_texts, scan_ofList_eq_ok_iff, Cut.ofChars_flatten_texts]
      exact ⟨rfl, rfl⟩
    · rw [scanLog, Cut.map_written_log, Cut.beforeEnd_tokens_append, Cut.summary,
        Cut.scan_eq_error_iff.1 hscan]
      rfl
  · intro level
    rw [scanLog, Cut.atLeast_log]
    cases level with
    | debug => rw [Cut.log, List.getLast?_concat, Option.toList_some]
    | _ => rfl

/-- A word before a line feed is found, whether the string on the next line is closed or not. -/
theorem scanLog_mirrors_scan_of_open_string :
    scan "a\n" = .ok [⟨.identifier, "a", none, 0⟩, Token.eof 1] ∧
    (scanLog "a\n").map LogRecord.written = [(.trace, .scanner, "token identifier a nil"),
      (.debug, .scanner, "scanned 2 tokens over 2 lines")] ∧
    scan "a\n\"b" = .error (.unterminatedString 1) ∧
    FaultAt "a\n\"b".toList (.unterminatedString 1) 2 ∧
    (scanLog "a\n\"b").map LogRecord.written = [(.trace, .scanner, "token identifier a nil"),
      (.debug, .scanner, "scan aborted after 1 tokens: [line 1] Error: Unterminated string.")] ∧
    LogRecord.atLeast .info (scanLog "a\n\"b") = [] := by
  have hok : scan "a\n" = .ok [⟨.identifier, "a", none, 0⟩, Token.eof 1] := by
    with_unfolding_all rfl
  have herror : scan "a\n\"b" = .error (.unterminatedString 1) := by with_unfolding_all rfl
  have hlength : (Cut.ofChars "a\n\"b".toList).texts.flatten.length = 2 := by
    with_unfolding_all rfl
  -- That the fault is at this position fixes the position that the log speaks of.
  obtain ⟨position, tokens, hposition, hbefore, hlog⟩ :=
    (scanLog_mirrors_scan "a\n\"b").2.1 _ herror
  have hfault := faultAt_length_texts herror
  rw [hlength] at hfault
  obtain rfl := (hposition 2).1 hfault
  cases hbefore.symm.trans hok
  exact ⟨hok, (scanLog_mirrors_scan "a\n").1 _ hok, herror, hfault, hlog,
    (scanLog_mirrors_scan "a\n\"b").2.2 .info⟩

end LoxLexer
