import LoxLexer.Command.Arguments
import LoxLexer.Proofs.Extension
import LoxLexer.Proofs.Independence

/-!
# The verdict on a file

Two commands read a file: one lists its tokens in a session, the other writes the token stream out.
Their verdict on the file is the same, whatever is in the file and whatever the format is: they end
with the same status and the same report, and they write nothing but that report unless the whole
file can be scanned. The session makes its report from the line and the message of an error, and the
other command displays the error; both give the same line.

## Key results

- `Command.perform_run_eq`: running a file answers for its source as writing its tokens out does
- `Verdict.ends_sourceOutcome`: an answer for a source ends with the verdict
- `ScanError.lineFeed_not_mem_display`: the error of a scan is displayed on one line
- `file_commands_agree`: both commands end with the verdict on the file
-/

namespace LoxLexer

/-! ## Answering for a source -/

/-- The outcome of a command that writes the tokens of a source as a text, but for failures. -/
def sourceOutcome (text : List Token → String) (source : Except SourceError String) : Outcome :=
  match source with
  | .error e => ⟨failureStatus, .empty, (failureReport e.chain).toUTF8⟩
  | .ok source =>
    match scan source with
    | .error e => ⟨dataErrorStatus, .empty, (e.display ++ "\n").toUTF8⟩
    | .ok tokens => ⟨successStatus, (text tokens).toUTF8, .empty⟩

/-- What is written to a sink with nothing in it is all that is in it. -/
theorem Sink.bytes_append_empty (limit : Option Nat) (text : String) :
    ((Sink.empty limit).append text).bytes = text.toUTF8 := ByteArray.empty_append

/-- Running a file succeeds if the sinks take everything, and its status is the mark of an error. -/
theorem Session.take_runFile {path source : String} {contents : Except ReadFault ByteArray}
    (h : sourceOf path contents = .ok source) {s : Session} (hs : s.Unlimited) :
    s.take (runFile path contents) =
      (.ok (if s.hadError || !(scan source).isOk then .failed else .ok),
        Session.afterRun
          { s with log := s.log ++ [LogRecord.running path source.utf8ByteSize] } source) := by
  -- A record in the log leaves the sinks as they are.
  have hlogged : Unlimited
      { s with log := s.log ++ [LogRecord.running path source.utf8ByteSize] } := ⟨hs.out, hs.err⟩
  simp only [take_runFile_of_ok h, take_run hlogged]
  rfl

namespace Command

variable (read : String → Except ReadFault ByteArray) (input : ByteArray) (file : String)

theorem perform_tokens_eq (format : TokenFormat) :
    (tokens file format).perform read input =
      sourceOutcome (fun tokens => format.render tokens ++ "\n") (sourceOf file (read file)) := rfl

/-- A session of its own that runs a file lists its tokens, and reports errors as they are
    displayed. -/
theorem perform_run_eq :
    (run file).perform read input =
      sourceOutcome Session.listing (sourceOf file (read file)) := by
  rw [perform]
  cases hsource : sourceOf file (read file) with
  | error e =>
    -- Nothing was done in the session, so the failure is all there is to report.
    rw [Session.take_runFile_of_error hsource]
    show Outcome.mk failureStatus .empty (.empty ++ (failureReport e.chain).toUTF8) = _
    rw [ByteArray.empty_append]
    rfl
  | ok source =>
    -- A new session has no mark of an error, so the scan alone decides the status.
    rw [Session.take_runFile hsource Session.unlimited_fresh]
    show Outcome.mk
      (if false || !(scan source).isOk then Session.RunStatus.failed else .ok).exitStatus
      ((Sink.empty none).append (Session.listed (scan source))).bytes
      ((Sink.empty none).append (Session.reported (scan source))).bytes = _
    rw [Sink.bytes_append_empty, Sink.bytes_append_empty, sourceOutcome]
    -- One of the two sinks stays empty, however the scan goes.
    cases scan source <;> rfl

end Command

/-! ## Verdicts -/

/-- The verdict on a file that was answered for by its contents or by a fault: the exit status and
    the report. -/
inductive Verdict (file : String) : Except ReadFault ByteArray → Nat → String → Prop where
  /-- The file cannot be read. -/
  | unreadable (fault : ReadFault) :
      Verdict file (.error fault) 1
        ("Error: failed to read '" ++ file ++ "'\n\nCaused by:\n    " ++ fault.message ++ "\n")
  /-- The bytes are not UTF-8, however many there are. -/
  | notUtf8 {bytes : ByteArray} (h : String.fromUTF8? bytes = none) :
      Verdict file (.ok bytes) 1
        ("Error: failed to read '" ++ file ++ "'\n\nCaused by:\n    "
          ++ "stream did not contain valid UTF-8" ++ "\n")
  /-- The text has more than a million bytes. -/
  | tooLarge {bytes : ByteArray} {text : String} (h : String.fromUTF8? bytes = some text)
      (hsize : 1000000 < bytes.size) :
      Verdict file (.ok bytes) 1
        ("Error: source file exceeds 1MB limit (" ++ toString bytes.size ++ " bytes)\n")
  /-- The text cannot be scanned. -/
  | faulty {bytes : ByteArray} {text : String} {e : ScanError}
      (h : String.fromUTF8? bytes = some text) (hsize : bytes.size ≤ 1000000)
      (hscan : scan text = .error e) :
      Verdict file (.ok bytes) 65 ("[line " ++ toString e.line ++ "] Error: " ++ e.message ++ "\n")
  /-- The text can be scanned. -/
  | scanned {bytes : ByteArray} {text : String} {tokens : List Token}
      (h : String.fromUTF8? bytes = some text) (hsize : bytes.size ≤ 1000000)
      (hscan : scan text = .ok tokens) : Verdict file (.ok bytes) 0 ""

/-- The outcome has this status and this report, and nothing is written out but on success. -/
structure Outcome.Ends (o : Outcome) (status : Nat) (report : String) : Prop where
  status_eq : o.status = status
  err_eq : o.err = report.toUTF8
  out_eq : status ≠ 0 → o.out = .empty

theorem exists_verdict (file : String) (contents : Except ReadFault ByteArray) :
    ∃ status report, Verdict file contents status report := by
  cases contents with
  | error fault => exact ⟨_, _, .unreadable fault⟩
  | ok bytes =>
    -- Whether the bytes are a text is asked before how many there are.
    cases h : String.fromUTF8? bytes with
    | none => exact ⟨_, _, .notUtf8 h⟩
    | some text =>
      by_cases hsize : bytes.size ≤ 1000000
      · cases hscan : scan text with
        | error e => exact ⟨_, _, .faulty h hsize hscan⟩
        | ok tokens => exact ⟨_, _, .scanned h hsize hscan⟩
      · exact ⟨_, _, .tooLarge h (Nat.lt_of_not_le hsize)⟩

theorem failureReport_unreadable (file : String) (fault : ReadFault) :
    failureReport (SourceError.unreadable file fault).chain =
      "Error: failed to read '" ++ file ++ "'\n\nCaused by:\n    " ++ fault.message ++ "\n" := by
  -- The report is put together of other parts, so the characters are compared.
  apply String.toList_inj.1
  simp [failureReport, SourceError.chain]

theorem failureReport_tooLarge (size : Nat) :
    failureReport (SourceError.tooLarge size).chain =
      "Error: source file exceeds 1MB limit (" ++ toString size ++ " bytes)\n" := by
  apply String.toList_inj.1
  simp [failureReport, SourceError.chain]

theorem sourceOf_of_notUtf8 {bytes : ByteArray} (h : String.fromUTF8? bytes = none)
    (file : String) : sourceOf file (.ok bytes) = .error (.unreadable file .notUtf8) := by
  simp only [sourceOf, h]

theorem sourceOf_of_text {bytes : ByteArray} {text : String}
    (h : String.fromUTF8? bytes = some text) (file : String) :
    sourceOf file (.ok bytes) =
      if bytes.size ≤ 1000000 then .ok text else .error (.tooLarge bytes.size) := by
  simp only [sourceOf, h]
  rfl

/-- An answer for a source ends with the verdict on the file that gives the source. -/
theorem Verdict.ends_sourceOutcome {file report : String} {status : Nat}
    {contents : Except ReadFault ByteArray} (h : Verdict file contents status report)
    (text : List Token → String) :
    (sourceOutcome text (sourceOf file contents)).Ends status report := by
  cases h with
  | unreadable fault =>
    exact ⟨rfl, congrArg String.toUTF8 (failureReport_unreadable file fault), fun _ => rfl⟩
  | notUtf8 h =>
    rw [sourceOf_of_notUtf8 h]
    exact ⟨rfl, congrArg String.toUTF8 (failureReport_unreadable file .notUtf8), fun _ => rfl⟩
  | tooLarge h hsize =>
    rw [sourceOf_of_text h, if_neg (Nat.not_le_of_lt hsize)]
    exact ⟨rfl, congrArg String.toUTF8 (failureReport_tooLarge _), fun _ => rfl⟩
  | @faulty _ _ e h hsize hscan =>
    -- The verdict has the line and the message; the outcome has the displayed error.
    rw [sourceOf_of_text h, if_pos hsize, ← e.display_eq]
    simp only [sourceOutcome, hscan]
    exact ⟨rfl, rfl, fun _ => rfl⟩
  | scanned h hsize hscan =>
    rw [sourceOf_of_text h, if_pos hsize]
    simp only [sourceOutcome, hscan]
    exact ⟨rfl, rfl, fun hne => absurd rfl hne⟩

/-! ## Errors on one line -/

/-- The message about a character has only this character in it that can be a line feed. -/
theorem ScanError.lineFeed_not_mem_message {line : Nat} {char : Char} (h : '\n' ≠ char) :
    '\n' ∉ (unexpectedCharacter line char).message.toList := by
  -- The texts around the character are looked through; of the character something is known.
  have hchar : char.toString.toList = [char] := String.toList_singleton char
  have hfront : '\n' ∉ "Unexpected character '".toList := by decide
  have hback : '\n' ∉ "'.".toList := by decide
  show '\n' ∉ ("Unexpected character '" ++ char.toString ++ "'.").toList
  rw [String.toList_append, String.toList_append, hchar, List.mem_append, List.mem_append,
    List.mem_singleton, or_assoc, not_or, not_or]
  exact ⟨hfront, h, hback⟩

/-- The error of a scan is displayed on one line: a line feed is never unexpected. -/
theorem ScanError.lineFeed_not_mem_display {source : String} {e : ScanError}
    (h : scan source = .error e) : '\n' ∉ e.display.toList := by
  have hline := lineFeed_not_mem_toDigits e.line
  have hmessage : '\n' ∉ e.message.toList := by
    cases e with
    | unterminatedString line =>
      show '\n' ∉ "Unterminated string.".toList
      decide
    | unexpectedCharacter line char =>
      obtain ⟨-, -, body, hrest⟩ :=
        Cut.exists_rest_of_unexpectedCharacter (Cut.scan_eq_error_iff.1 h)
      -- No piece begins with the character, but a line feed would be a blank.
      have hnone : Piece.first? (Cut.ofChars source.toList).rest = none := Cut.first?_rest 0 _
      rw [hrest] at hnone
      have hblank := Piece.isWhitespace_eq_false_of_first?_eq_none hnone
      apply lineFeed_not_mem_message
      rintro rfl
      cases hblank
  simp [e.display_eq, hline, hmessage]

/-- Reporting an error by its line and its message writes what displaying it writes. -/
theorem Session.take_error_of_scanError {s : Session} (hs : s.Unlimited) (e : ScanError) :
    s.take (error e.line e.message) =
      (.ok (), { s with err := s.err.append (e.display ++ "\n"), hadError := true }) := by
  show s.take (report e.line "" e.message) = _
  rw [take_report, diagnostic_of_scanError, Sink.write_of_room_eq_none hs.err, Bool.or_true]
  rfl

/-! ## Agreement -/

/-- Two commands, one that runs a file and one that writes its tokens out, end with the same status
    and the same report, however they are asked for and whatever reading the file gives: the verdict
    on the file, which exists in every case. Neither writes anything else unless the file can be
    scanned. If it cannot, the report is one line, the displayed error, and this is also what a
    session reports that is given the line and the message of the error. -/
theorem file_commands_agree {runArgs tokensArgs : List String} {file : String}
    {format : TokenFormat} (hrun : Request.ofArguments runArgs = .perform (.run file))
    (htokens : Request.ofArguments tokensArgs = .perform (.tokens file format))
    (read : String → Except ReadFault ByteArray) (input : ByteArray) :
    (∃ status report, Verdict file (read file) status report) ∧
    (∀ status report, Verdict file (read file) status report →
      ((Request.ofArguments runArgs).answer read input).Ends status report ∧
      ((Request.ofArguments tokensArgs).answer read input).Ends status report) ∧
    ∀ source e, scan source = .error e →
      e.display = "[line " ++ toString e.line ++ "] Error: " ++ e.message ∧
      '\n' ∉ e.display.toList ∧
      ∀ s : Session, s.Unlimited → s.take (Session.error e.line e.message) =
        (.ok (), { s with err := s.err.append (e.display ++ "\n"), hadError := true }) := by
  rw [hrun, htokens]
  refine ⟨exists_verdict file (read file), ?_, ?_⟩
  · intro status report hverdict
    -- Each command answers for the source that the file gives, and the verdict is on this source.
    constructor
    · show ((Command.run file).perform read input).Ends status report
      rw [Command.perform_run_eq]
      exact hverdict.ends_sourceOutcome _
    · show ((Command.tokens file format).perform read input).Ends status report
      rw [Command.perform_tokens_eq]
      exact hverdict.ends_sourceOutcome _
  · intro source e hscan
    exact ⟨e.display_eq, ScanError.lineFeed_not_mem_display hscan,
      fun s hs => Session.take_error_of_scanError hs e⟩

/-- A string that is left open over a line feed and a character beyond ASCII that begins no token,
    in a file that is named behind the options. -/
theorem file_commands_agree_on_both_errors :
    Request.ofArguments ["run", "a.lox"] = .perform (.run "a.lox") ∧
    Request.ofArguments ["tokens", "--format=json", "--", "a.lox"] =
      .perform (.tokens "a.lox" .json) ∧
    Verdict "a.lox" (.ok "+ \"\n".toUTF8) 65 "[line 1] Error: Unterminated string.\n" ∧
    ((Request.ofArguments ["run", "a.lox"]).answer (fun _ => .ok "+ \"\n".toUTF8) .empty).Ends 65
      "[line 1] Error: Unterminated string.\n" ∧
    ((Request.ofArguments ["tokens", "--format=json", "--", "a.lox"]).answer
      (fun _ => .ok "+ \"\n".toUTF8) .empty).Ends 65 "[line 1] Error: Unterminated string.\n" ∧
    Verdict "a.lox" (.ok "(\né".toUTF8) 65 "[line 1] Error: Unexpected character 'é'.\n" ∧
    ((Request.ofArguments ["run", "a.lox"]).answer (fun _ => .ok "(\né".toUTF8) .empty).Ends 65
      "[line 1] Error: Unexpected character 'é'.\n" ∧
    ((Request.ofArguments ["tokens", "--format=json", "--", "a.lox"]).answer
      (fun _ => .ok "(\né".toUTF8) .empty).Ends 65
        "[line 1] Error: Unexpected character 'é'.\n" := by
  have hrun : Request.ofArguments ["run", "a.lox"] = .perform (.run "a.lox") := by
    with_unfolding_all rfl
  have htokens : Request.ofArguments ["tokens", "--format=json", "--", "a.lox"] =
      .perform (.tokens "a.lox" .json) := by with_unfolding_all rfl
  -- The quote is on the first line, and the end of the source, where the error shows, is not.
  have hopen : Verdict "a.lox" (.ok "+ \"\n".toUTF8) 65
      "[line 1] Error: Unterminated string.\n" := by
    have hscan : scan "+ \"\n" = .error (.unterminatedString 1) := by with_unfolding_all rfl
    exact .faulty (String.fromUTF8?_eq_some_iff.2 rfl) (by decide) hscan
  -- The character has two bytes, and it is reported as a whole.
  have hunexpected : Verdict "a.lox" (.ok "(\né".toUTF8) 65
      "[line 1] Error: Unexpected character 'é'.\n" := by
    have hscan : scan "(\né" = .error (.unexpectedCharacter 1 'é') := by with_unfolding_all rfl
    exact .faulty (String.fromUTF8?_eq_some_iff.2 rfl) (by decide) hscan
  obtain ⟨hopenRun, hopenTokens⟩ :=
    (file_commands_agree hrun htokens (fun _ => .ok "+ \"\n".toUTF8) .empty).2.1 _ _ hopen
  obtain ⟨hunexpectedRun, hunexpectedTokens⟩ :=
    (file_commands_agree hrun htokens (fun _ => .ok "(\né".toUTF8) .empty).2.1 _ _ hunexpected
  exact ⟨hrun, htokens, hopen, hopenRun, hopenTokens, hunexpected, hunexpectedRun,
    hunexpectedTokens⟩

end LoxLexer
