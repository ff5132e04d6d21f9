import LoxLexer.Proofs.Listing
import LoxLexer.Proofs.NumberText
import LoxLexer.Proofs.Prompting

/-!
# Lines of a prompt by themselves

A prompt keeps one session for all of its lines, and still each line is answered as if it were the
only one: with sinks that take everything, a prompt lists and reports what a new session lists and
reports for each line alone, up to the first line that is not UTF-8. A line alone holds no line feed
once its end is left out, so its error is on line zero and each of its tokens is listed on one line.

## Key results

- `Session.inputLines_iff`: the lines of an input
- `Token.Scanned.lineFeed_not_mem_display`: a token without a line feed is listed without one
- `Session.answeredAlone_of_not_mem`: what a line alone lists and reports
- `Session.prompt_line_by_line`: what a prompt lists and reports
-/

namespace LoxLexer

/-! ## Listed tokens -/

/-- A token without a line feed is listed without one. -/
theorem Token.Scanned.lineFeed_not_mem_display {t : Token} (h : t.Scanned)
    (ht : '\n' ∉ t.lexeme.toList) : '\n' ∉ t.display.toList := by
  have hnil : '\n' ∉ "nil".toList := by decide
  have hliteral : '\n' ∉ t.displayLiteral.toList := by
    -- The literal is the last of the three parts that are listed, and the others are known.
    cases h with
    | eof line => exact hnil
    | @piece p kind hp hkind line =>
      rw [String.toList_ofList] at ht
      cases p with
      | string body =>
        -- The body of a string is part of its text.
        show '\n' ∉ (String.ofList body).toList
        simp only [Piece.text, List.mem_append, List.mem_cons, not_or] at ht
        rw [String.toList_ofList]
        exact ht.1.2
      | number n => exact n.value.lineFeed_not_mem_display
      | _ => exact hnil
  have hname : '\n' ∉ t.kind.name.toList := t.kind.not_mem_toList_name rfl
  simp [Token.display, hname, ht, hliteral]

/-- The error of a scan is on a line of the source. -/
theorem line_le_of_scan_eq_error {source : String} {e : ScanError} (h : scan source = .error e) :
    e.line ≤ source.toList.count '\n' := by
  have herror := Cut.scan_eq_error_iff.1 h
  have hcs : (Cut.ofChars source.toList).texts.flatten ++ (Cut.ofChars source.toList).rest =
      source.toList := (Cut.cuts_startingAt 0 source.toList).flatten_append
  have hline : (Cut.ofChars source.toList).line =
      0 + (Cut.ofChars source.toList).texts.flatten.count '\n' :=
    Cut.line_startingAt 0 source.toList
  -- The line feeds before the place of the error, and those behind the quote of a string.
  rw [← hcs, List.count_append]
  obtain ⟨_, hnone⟩ | ⟨body, hrest, hopen⟩ | ⟨_, _, _, _, hunexpected⟩ :=
    (Cut.ofChars source.toList).rest_cases
  · cases herror.symm.trans hnone
  · cases herror.symm.trans hopen
    rw [hrest, List.count_cons_of_ne (by decide), ScanError.line]
    omega
  · cases herror.symm.trans hunexpected
    rw [ScanError.line]
    omega

namespace Session

/-! ## Lines of an input -/

/-- The lines of an input: each ends at its line feed, and the last may have none but is not
    empty. -/
inductive InputLines : List UInt8 → List (List UInt8) → Prop where
  | nil : InputLines [] []
  | last {line : List UInt8} (hne : line ≠ []) (h : 10 ∉ line) : InputLines line [line]
  | cons {line rest : List UInt8} {lines : List (List UInt8)} (h : 10 ∉ line)
      (hrest : InputLines rest lines) : InputLines (line ++ 10 :: rest) ((line ++ [10]) :: lines)

theorem byteLines_of_not_mem {line : List UInt8} (hne : line ≠ []) (h : 10 ∉ line) :
    byteLines line = [line] :=
  List.linesBy_eq_singleton hne fun b hb (heq : b = 10) => h (heq ▸ hb)

theorem byteLines_append_cons {line : List UInt8} (h : 10 ∉ line) (rest : List UInt8) :
    byteLines (line ++ 10 :: rest) = (line ++ [10]) :: byteLines rest :=
  List.linesBy_append_cons (fun b hb (heq : b = 10) => h (heq ▸ hb)) rfl rest

theorem inputLines_byteLines (bytes : List UInt8) : InputLines bytes (byteLines bytes) := by
  induction bytes using List.induction_by_lines (10 : UInt8) with
  | last line h =>
    -- Behind the last line feed there may be nothing, and that is no line.
    by_cases hnil : line = []
    · subst hnil
      exact .nil
    · rw [byteLines_of_not_mem hnil h]
      exact .last hnil h
  | line line rest h ih =>
    rw [byteLines_append_cons h]
    exact .cons h ih

/-- An input has lines in one way. -/
theorem inputLines_iff {bytes : List UInt8} {lines : List (List UInt8)} :
    InputLines bytes lines ↔ lines = byteLines bytes := by
  constructor
  · intro h
    induction h with
    | nil => rfl
    | last hne h => rw [byteLines_of_not_mem hne h]
    | cons h hrest ih => rw [byteLines_append_cons h, ← ih]
  · rintro rfl
    exact inputLines_byteLines bytes

/-- Only the last byte of a line can be a line feed. -/
theorem InputLines.not_mem_dropLast {bytes : List UInt8} {lines : List (List UInt8)}
    (h : InputLines bytes lines) : ∀ line ∈ lines, 10 ∉ line.dropLast := by
  -- By induction on how the lines are cut.
  induction h with
  | nil => exact List.forall_mem_nil _
  | last hne h => exact List.forall_mem_singleton.2 fun hmem => h (List.dropLast_subset _ hmem)
  | cons h hrest ih =>
    refine List.forall_mem_cons.2 ⟨?_, ih⟩
    rwa [List.dropLast_concat]

/-- Lines are texts up to the first that is none. -/
theorem exists_eq_map_byteList_append (lines : List (List UInt8)) :
    ∃ (accepted : List String) (others : List (List UInt8)),
      lines = accepted.map String.byteList ++ others ∧
      ∀ line ∈ others.head?, ∀ text : String, text.byteList ≠ line := by
  -- By induction on the lines: the first that is no text ends the accepted ones.
  induction lines with
  | nil => exact ⟨[], [], rfl, by simp⟩
  | cons line lines ih =>
    by_cases htext : ∃ text : String, text.byteList = line
    · obtain ⟨text, rfl⟩ := htext
      obtain ⟨accepted, others, rfl, hothers⟩ := ih
      exact ⟨text :: accepted, others, rfl, hothers⟩
    · refine ⟨[], line :: lines, rfl, ?_⟩
      intro line' hline'
      cases hline'
      exact not_exists.1 htext

theorem fromUTF8?_eq_none {line : List UInt8} (h : ∀ text : String, text.byteList ≠ line) :
    String.fromUTF8? line.toByteArray = none := by
  -- A text that the bytes decode to would have them for its bytes.
  rw [Option.eq_none_iff_forall_ne_some]
  intro text htext
  apply h text
  rw [String.byteList, ← String.fromUTF8?_eq_some_iff.1 htext, List.toList_data_toByteArray]

/-! ## A line alone -/

/-- A new session that has run a line without its end, and nothing else. -/
def alone (text : String) : Session := ((fresh none none).take (run (trimLineEnd text))).2

/-- How a line is answered alone. If what is left of it can be scanned, each token is listed on one
    line and nothing is reported; otherwise the error is reported on line zero and nothing is
    listed. -/
structure AnsweredAlone (text : String) : Prop where
  trimmed : IsTrimmed text.toList (trimLineEnd text).toList
  of_ok : ∀ tokens, scan (trimLineEnd text) = .ok tokens →
    (alone text).out.contents.count 10 = tokens.length ∧ (alone text).err.contents = []
  of_error : ∀ e, scan (trimLineEnd text) = .error e →
    (alone text).out.contents = [] ∧
      (alone text).err.contents = ("[line 0] Error: " ++ e.message ++ "\n").byteList

theorem contents_out_alone (text : String) :
    (alone text).out.contents = (listed (scan (trimLineEnd text))).byteList := by
  -- In a new session the contents are what the run adds.
  rw [alone, take_run unlimited_fresh, afterRun, Sink.contents_append]
  rfl

theorem contents_err_alone (text : String) :
    (alone text).err.contents = (reported (scan (trimLineEnd text))).byteList := by
  rw [alone, take_run unlimited_fresh, afterRun, Sink.contents_append]
  rfl

/-- If only the last byte of characters can be a line feed, only the last of them can. -/
theorem lineFeed_not_mem_of_dropLast {front : List Char} {c : Char}
    (h : 10 ∉ ((front ++ [c]).flatMap String.utf8EncodeChar).dropLast) : '\n' ∉ front := by
  intro hmem
  rw [List.flatMap_append, List.flatMap_singleton,
    List.dropLast_append_of_ne_nil String.utf8EncodeChar_ne_nil] at h
  -- A line feed among the characters is a byte of them.
  have hbyte : 10 ∈ String.utf8EncodeChar '\n' := by decide
  exact h (List.mem_append_left _ (List.mem_flatMap_of_mem hmem hbyte))

/-- No line feed is left of a line without its end. -/
theorem lineFeed_not_mem_trimLineEnd {text : String} (h : 10 ∉ text.byteList.dropLast) :
    '\n' ∉ (trimLineEnd text).toList := by
  obtain ⟨⟨tail, htext, htail⟩, hlast⟩ := isTrimmed_trimLineEnd text
  intro hmem
  obtain hnil | ⟨front, c, hconcat⟩ := List.eq_nil_or_concat text.toList
  · rw [hnil] at htext
    rw [(List.append_eq_nil_iff.1 htext.symm).1] at hmem
    cases hmem
  · rw [List.concat_eq_append] at hconcat
    rw [String.byteList, String.toList_toUTF8, hconcat] at h
    have hfront := lineFeed_not_mem_of_dropLast h
    -- What is left is a part of the line before its last character, or the whole line.
    have hleft : (trimLineEnd text).toList <+: front ++ [c] := ⟨tail, by rw [← htext, hconcat]⟩
    obtain hall | hpart := List.prefix_concat_iff.1 hleft
    · rw [hall] at hmem
      obtain hmem | hmem := List.mem_append.1 hmem
      · exact hfront hmem
      · have hc := hlast c (by rw [hall, List.getLast?_concat]; rfl)
        exact hc.1 (List.mem_singleton.1 hmem).symm
    · exact hfront (hpart.subset hmem)

theorem count_byteList_listing {tokens : List Token}
    (h : ∀ t ∈ tokens, '\n' ∉ t.display.toList) :
    (listing tokens).byteList.count 10 = tokens.length := by
  rw [String.count_lineFeed_byteList]
  -- Each token is listed with one line feed behind it and none in it.
  induction tokens with
  | nil => rfl
  | cons t tokens ih =>
    obtain ⟨ht, htokens⟩ := List.forall_mem_cons.1 h
    rw [toList_listing_cons, List.count_append, List.count_cons_self, ih htokens,
      List.count_eq_zero.2 ht, List.length_cons, Nat.zero_add]

theorem answeredAlone_of_not_mem {text : String} (h : '\n' ∉ (trimLineEnd text).toList) :
    AnsweredAlone text where
  trimmed := isTrimmed_trimLineEnd text
  of_ok tokens hscan := by
    rw [contents_out_alone, contents_err_alone, hscan]
    refine ⟨count_byteList_listing ?_, rfl⟩
    intro t ht
    have hscanned := scanned_of_mem_of_scan_eq_ok hscan t ht
    apply hscanned.lineFeed_not_mem_display
    obtain ⟨-, rfl⟩ := Cut.scan_eq_ok_iff.1 hscan
    -- The token that ends the input has no text.
    obtain hfront | hlast := List.mem_append.1 ht
    · exact Cut.not_mem_lexeme h t hfront
    · rw [List.mem_singleton.1 hlast]
      exact List.not_mem_nil
  of_error e hscan := by
    have hline := line_le_of_scan_eq_error hscan
    rw [List.count_eq_zero.2 h] at hline
    -- A source without a line feed has only line zero.
    have hzero : e.line = 0 := by omega
    rw [contents_out_alone, contents_err_alone, hscan, listed, reported, e.display_eq, hzero]
    exact ⟨rfl, rfl⟩

/-! ## The prompt -/

/-- A step adds these bytes to the listing and to the reports. -/
def Adds {α : Type} (s : Session) (step : SessionStep α) (out err : List UInt8) : Prop :=
  (s.take step).2.out.contents = s.out.contents ++ out ∧
    (s.take step).2.err.contents = s.err.contents ++ err

theorem contents_out_afterLines (s : Session) (accepted : List String) :
    (s.afterLines (accepted.map String.toList)).out.contents =
      s.out.contents ++
        accepted.flatMap fun text => "> ".byteList ++ (alone text).out.contents := by
  simp only [afterLines, Sink.contents_append, String.byteList_join, List.map_map,
    List.flatMap_map, Function.comp_def, scanLine, String.ofList_toList, contents_out_alone,
    String.byteList_append]

theorem contents_err_afterLines (s : Session) (accepted : List String) :
    (s.afterLines (accepted.map String.toList)).err.contents =
      s.err.contents ++ accepted.flatMap fun text => (alone text).err.contents := by
  simp only [afterLines, Sink.contents_append, String.byteList_join, List.map_map,
    List.flatMap_map, Function.comp_def, scanLine, String.ofList_toList, contents_err_alone]

theorem take_prompt_of_byteLines {s : Session} (h : s.Unlimited) {input : ByteArray}
    {accepted : List String} {others : List (List UInt8)}
    (hlines : byteLines input.data.toList = accepted.map String.byteList ++ others) :
    s.take (prompt input) =
      (s.afterLines (accepted.map String.toList)).take (promptLines others) := by
  -- The lines are given as texts here, and as their characters where prompts are taken apart.
  have hbytes : accepted.map String.byteList =
      (accepted.map String.toList).map (·.flatMap String.utf8EncodeChar) := by
    rw [List.map_map]
    exact List.map_congr_left fun text _ => String.toList_toUTF8 text
  rw [prompt, hlines, hbytes, take_promptLines_append h]

/-- Without a line that is no text, a prompt ends with the input. -/
theorem take_prompt_of_texts {s : Session} (h : s.Unlimited) {input : ByteArray}
    {accepted : List String} (hlines : byteLines input.data.toList = accepted.map String.byteList) :
    (s.take (prompt input)).1 = .ok () ∧
      s.Adds (prompt input)
        ((accepted.flatMap fun text => "> ".byteList ++ (alone text).out.contents) ++
          "> ".byteList ++ "\n".byteList)
        (accepted.flatMap fun text => (alone text).err.contents) := by
  -- The accepted lines come first, and then the end of the input.
  have htake := take_prompt_of_byteLines h (hlines.trans (List.append_nil _).symm)
  have hlinesUnlimited := h.afterLines (accepted.map String.toList)
  rw [promptLines, take_ask_bind hlinesUnlimited, take_endPrompt hlinesUnlimited.afterAsking]
    at htake
  rw [Adds, htake]
  refine ⟨rfl, ?_, contents_err_afterLines s accepted⟩
  simp only [afterAsking, Sink.contents_append, contents_out_afterLines, List.append_assoc]

/-- A prompt fails at the first line that is no text, after it has asked for it. -/
theorem take_prompt_of_not_text {s : Session} (h : s.Unlimited) {input : ByteArray}
    {accepted : List String} {line : List UInt8} {others : List (List UInt8)}
    (hlines : byteLines input.data.toList = accepted.map String.byteList ++ line :: others)
    (hline : ∀ text : String, text.byteList ≠ line) :
    (s.take (prompt input)).1 = .error .notUtf8 ∧
      s.Adds (prompt input)
        ((accepted.flatMap fun text => "> ".byteList ++ (alone text).out.contents) ++
          "> ".byteList)
        (accepted.flatMap fun text => (alone text).err.contents) := by
  -- The accepted lines come first, and then the line that cannot be decoded.
  have htake := take_prompt_of_byteLines h hlines
  have hlinesUnlimited := h.afterLines (accepted.map String.toList)
  rw [promptLines, take_ask_bind hlinesUnlimited, take_bind,
    take_promptLine_of_not_utf8 (fromUTF8?_eq_none hline)] at htake
  rw [Adds, htake]
  refine ⟨rfl, ?_, contents_err_afterLines s accepted⟩
  simp only [afterAsking, Sink.contents_append, contents_out_afterLines, List.append_assoc]

/-- A prompt for a text that ends with a line, and for another text behind it. -/
theorem adds_prompt_append {s : Session} (h : s.Unlimited) {a : String}
    (ha : a = "" ∨ a.toList.getLast? = some '\n') (b : String) :
    ∃ outA errA outB errB : List UInt8,
      s.Adds (prompt a.toUTF8) (outA ++ "> \n".byteList) errA ∧
      s.Adds (prompt b.toUTF8) outB errB ∧
      s.Adds (prompt (a ++ b).toUTF8) (outA ++ outB) (errA ++ errB) := by
  have hlast : ∀ c ∈ a.toList.getLast?, c = '\n' := by
    obtain rfl | ha := ha
    · simp
    · rw [ha]
      intro c hc
      cases hc
      rfl
  -- What a prompt for a text writes before its input ends is made line by line.
  let outs (text : String) : String :=
    String.join ((text.toList.linesBy (· = '\n')).map fun line => "> " ++ listed (scanLine line))
  let errs (text : String) : String :=
    String.join ((text.toList.linesBy (· = '\n')).map (reported ∘ scanLine))
  have hadds (text : String) : s.Adds (prompt text.toUTF8)
      ((outs text).byteList ++ "> \n".byteList) (errs text).byteList := by
    rw [Adds, take_prompt h]
    simp only [afterPrompt, Sink.contents_append, String.byteList_append]
    exact ⟨rfl, rfl⟩
  -- The first text ends with a line, so no line goes on from one text into the other.
  have hlines : (a ++ b).toList.linesBy (· = '\n') =
      a.toList.linesBy (· = '\n') ++ b.toList.linesBy (· = '\n') := by
    rw [String.toList_append, List.linesBy_append hlast]
  have houts : (outs (a ++ b)).byteList = (outs a).byteList ++ (outs b).byteList := by
    simp only [outs, hlines, List.map_append, String.join_append, String.byteList_append]
  have herrs : (errs (a ++ b)).byteList = (errs a).byteList ++ (errs b).byteList := by
    simp only [errs, hlines, List.map_append, String.join_append, String.byteList_append]
  refine ⟨_, _, _, _, hadds a, hadds b, ?_⟩
  have hboth := hadds (a ++ b)
  rwa [houts, herrs, List.append_assoc] at hboth

/-- A prompt answers the lines of its input one by one, each as if it were the only one, up to the
    first line that is not UTF-8; it fails there, and otherwise ends with the input. So a prompt for
    a text behind another one, which is empty or ends with a line, writes what the prompts for both
    write, but for what the first writes where its input ends. -/
theorem prompt_line_by_line {s : Session} (h : s.Unlimited) :
    (∀ input : ByteArray, ∃ (accepted : List String) (others : List (List UInt8)),
      InputLines input.data.toList (accepted.map String.byteList ++ others) ∧
      (∀ line ∈ others.head?, ∀ text : String, text.byteList ≠ line) ∧
      (s.take (prompt input)).1 = (if others = [] then .ok () else .error .notUtf8) ∧
      s.Adds (prompt input)
        ((accepted.flatMap fun text => "> ".byteList ++ (alone text).out.contents) ++
          "> ".byteList ++ if others = [] then "\n".byteList else [])
        (accepted.flatMap fun text => (alone text).err.contents) ∧
      ∀ text ∈ accepted, AnsweredAlone text) ∧
    ∀ a b : String, (a = "" ∨ a.toList.getLast? = some '\n') →
      ∃ outA errA outB errB : List UInt8,
        s.Adds (prompt a.toUTF8) (outA ++ "> \n".byteList) errA ∧
        s.Adds (prompt b.toUTF8) outB errB ∧
        s.Adds (prompt (a ++ b).toUTF8) (outA ++ outB) (errA ++ errB) := by
  refine ⟨?_, fun a b ha => adds_prompt_append h ha b⟩
  intro input
  obtain ⟨accepted, others, hlines, hothers⟩ :=
    exists_eq_map_byteList_append (byteLines input.data.toList)
  have hinput := inputLines_iff.2 hlines.symm
  -- An accepted line has a line feed at its end or none, so none is left when it is run.
  have hanswered : ∀ text ∈ accepted, AnsweredAlone text := by
    intro text htext
    have hline := hinput.not_mem_dropLast text.byteList
      (List.mem_append_left _ (List.mem_map_of_mem htext))
    exact answeredAlone_of_not_mem (lineFeed_not_mem_trimLineEnd hline)
  refine ⟨accepted, others, hinput, hothers, ?_⟩
  -- Whether a line that is no text is left over decides how the prompt ends.
  cases others with
  | nil =>
    rw [List.append_nil] at hlines
    obtain ⟨hresult, hadds⟩ := take_prompt_of_texts h hlines
    exact ⟨hresult, hadds, hanswered⟩
  | cons line others =>
    obtain ⟨hresult, hadds⟩ := take_prompt_of_not_text h hlines (hothers line rfl)
    rw [if_neg (List.cons_ne_nil line others), if_neg (List.cons_ne_nil line others),
      List.append_nil]
    exact ⟨hresult, hadds, hanswered⟩

/-- A byte that begins no character behind two carriage returns, and a line in front of a text that
    cannot be scanned. -/
theorem prompt_line_by_line_of_broken_input :
    (fresh none none).Unlimited ∧
    (∃ (accepted : List String) (others : List (List UInt8)),
      InputLines [120, 13, 13, 10, 255] (accepted.map String.byteList ++ others) ∧
      ((fresh none none).take (prompt ⟨#[120, 13, 13, 10, 255]⟩)).1 =
        (if others = [] then .ok () else .error .notUtf8)) ∧
    ("x\r\n" = "" ∨ "x\r\n".toList.getLast? = some '\n') ∧
    ∃ outA errA outB errB : List UInt8,
      (fresh none none).Adds (prompt "x\r\n".toUTF8) (outA ++ "> \n".byteList) errA ∧
      (fresh none none).Adds (prompt "$".toUTF8) outB errB ∧
      (fresh none none).Adds (prompt ("x\r\n" ++ "$").toUTF8) (outA ++ outB) (errA ++ errB) := by
  have hprompt := prompt_line_by_line unlimited_fresh
  have hends : "x\r\n" = "" ∨ "x\r\n".toList.getLast? = some '\n' := .inr (by decide)
  obtain ⟨accepted, others, hlines, -, hresult, -, -⟩ := hprompt.1 ⟨#[120, 13, 13, 10, 255]⟩
  exact ⟨unlimited_fresh, ⟨accepted, others, hlines, hresult⟩, hends, hprompt.2 _ "$" hends⟩

end Session

end LoxLexer
