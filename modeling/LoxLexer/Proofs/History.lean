import LoxLexer.Proofs.Effects
import LoxLexer.Proofs.Requests

/-!
# The mark of an error over a history

A session is asked one thing after another, and some of it may fail. Two kinds of events decide
whether it has the mark of an error: a diagnostic that is written in full sets it, and a line of a
prompt that is dealt with clears it. The mark after any history is that of its last event.

## Key results

- `Session.hadError_take_request`: what a request does to the mark
- `Session.hadError_after`: the mark after a history
- `Session.hadError_iff_of_history`: when a session has the mark, and what each request does to it
-/

namespace LoxLexer.Session

/-! ## Events -/

/-- What can happen to the mark of an error. -/
inductive Event where
  /-- The line of a diagnostic was written in full. -/
  | reported
  /-- A line of a prompt was dealt with. -/
  | answered
deriving DecidableEq

/-- The mark after events: the last of them decides. -/
def markAfter (marked : Bool) (events : List Event) : Bool :=
  events.foldl (fun _ e => e = .reported) marked

/-- A step reports a diagnostic if all of its line stands in the sink afterwards, behind what was
    there before. -/
def reportEvents {α : Type} (s : Session) (step : SessionStep α) (line : String) : List Event :=
  if (s.take step).2.err.contents = s.err.contents ++ line.byteList then [.reported] else []

/-- A step that scans a source can only report the error of the scan. -/
def scanEvents {α : Type} (s : Session) (step : SessionStep α) (source : String) : List Event :=
  match scan source with
  | .ok _ => []
  | .error e => reportEvents s step (e.display ++ "\n")

/-- The events of a prompt. A line is dealt with if it was asked for, is a text, and its run
    succeeds; what the run reports comes before that. -/
def promptEvents : List (List UInt8) → Session → List Event
  | [], _ => []
  | line :: lines, s =>
    let asked := (s.take (writeOut "> ")).2
    match (s.take (writeOut "> ")).1, String.fromUTF8? line.toByteArray with
    | .ok _, some text =>
      scanEvents asked (run (trimLineEnd text)) (trimLineEnd text) ++
        match (asked.take (run (trimLineEnd text))).1 with
        | .ok _ => .answered :: promptEvents lines (asked.take (promptLine line)).2
        | .error _ => []
    | _, _ => []

/-- The events of a request. -/
def Request.events (s : Session) : Request → List Event
  | run source => scanEvents s (Session.run source) source
  | error line message =>
    reportEvents s (Session.error line message) (diagnostic line "" message)
  | report line place message =>
    reportEvents s (Session.report line place message) (diagnostic line place message)
  | runFile path contents =>
    match sourceOf path contents with
    | .ok source => scanEvents s (Session.runFile path contents) source
    | .error _ => []
  | prompt input => promptEvents (byteLines input.data.toList) s

/-- A session after requests, some of which may have failed. -/
def after (s : Session) (requests : List Request) : Session :=
  requests.foldl (fun s r => (s.take r.step).2) s

/-- The events of requests, one after another. -/
def history : Session → List Request → List Event
  | _, [] => []
  | s, r :: requests => r.events s ++ history (s.take r.step).2 requests

/-! ## The mark after events -/

theorem markAfter_append (marked : Bool) (a b : List Event) :
    markAfter marked (a ++ b) = markAfter (markAfter marked a) b :=
  List.foldl_append

/-- Without a mark before them, events leave a mark if something was reported and no line of a
    prompt was dealt with behind it. -/
theorem markAfter_false_eq_true_iff {events : List Event} :
    markAfter false events = true ↔
      ∃ before after, events = before ++ .reported :: after ∧ .answered ∉ after := by
  -- The mark is that of the last event, so the events are taken from behind.
  obtain rfl | ⟨front, last, rfl⟩ := List.eq_nil_or_concat events
  · simp [markAfter]
  · rw [List.concat_eq_append, markAfter_append]
    cases last with
    | reported => exact iff_of_true rfl ⟨front, [], rfl, List.not_mem_nil⟩
    | answered =>
      apply iff_of_false
      · exact Bool.false_ne_true
      · rintro ⟨before, after, heq, hafter⟩
        -- The last event is the report or one of those behind it.
        have hlast := congrArg List.getLast? heq
        rw [List.getLast?_concat, List.getLast?_append] at hlast
        have hmem : Event.answered ∈ Event.reported :: after :=
          List.mem_of_getLast? (by simpa [List.getLast?_cons] using hlast.symm)
        simp [hafter] at hmem

/-! ## What a request does to the mark -/

/-- A diagnostic is reported if its line fits. -/
theorem reportEvents_of_write {α : Type} {s : Session} {step : SessionStep α} {line : String}
    (h : (s.take step).2.err = (s.err.write line).2) :
    reportEvents s step line = if (s.err.write line).1 then [.reported] else [] := by
  -- The line fits exactly if all of it was added.
  rw [reportEvents, h]
  simp only [Sink.contents_write_eq_iff]

theorem markAfter_reportEvents {α : Type} {s : Session} {step : SessionStep α} {line : String}
    (h : (s.take step).2.err = (s.err.write line).2) (marked : Bool) :
    markAfter marked (reportEvents s step line) = (marked || (s.err.write line).1) := by
  rw [reportEvents_of_write h]
  cases (s.err.write line).1 <;> simp [markAfter]

theorem hadError_take_report (s : Session) (line : Nat) (place message : String) :
    (s.take (report line place message)).2.hadError =
      markAfter s.hadError
        (reportEvents s (report line place message) (diagnostic line place message)) := by
  -- The report writes its line and nothing else, and marks whether it fitted.
  rw [markAfter_reportEvents (by rw [take_report]), take_report]

/-- A step that ends like a run behind more of a log marks what its scan reports. -/
theorem hadError_eq_markAfter_scanEvents {α : Type} {s : Session} {step : SessionStep α}
    {source : String} (records : List LogRecord)
    (h : (s.take step).2 = (Session.take { s with log := s.log ++ records } (run source)).2) :
    (s.take step).2.hadError = markAfter s.hadError (scanEvents s step source) := by
  rw [scanEvents]
  -- A scan that succeeds has nothing to report, and its error is the line that is reported.
  cases hscan : scan source with
  | ok tokens =>
    rw [h, take_run_of_ok hscan]
    rfl
  | error e =>
    have hwrite : (s.take step).2.err = (s.err.write (e.display ++ "\n")).2 := by
      rw [h, take_run_of_error hscan]
    show _ = markAfter s.hadError (reportEvents s step (e.display ++ "\n"))
    rw [markAfter_reportEvents hwrite, h, take_run_of_error hscan]

theorem hadError_take_run (s : Session) (source : String) :
    (s.take (run source)).2.hadError =
      markAfter s.hadError (scanEvents s (run source) source) :=
  hadError_eq_markAfter_scanEvents [] (by simp)

/-- A run that fails has reported nothing. -/
theorem scanEvents_run_of_error {s : Session} {source : String} {e : SessionError}
    (h : (s.take (run source)).1 = .error e) : scanEvents s (run source) source = [] := by
  rw [scanEvents]
  cases hscan : scan source with
  | ok tokens => rfl
  | error e' =>
    have hwrite : (s.take (run source)).2.err = (s.err.write (e'.display ++ "\n")).2 := by
      rw [take_run_of_error hscan]
    rw [take_run_of_error hscan] at h
    -- Of an error only the report can fail.
    show reportEvents s (run source) (e'.display ++ "\n") = []
    rw [reportEvents_of_write hwrite]
    cases hfits : (s.err.write (e'.display ++ "\n")).1 with
    | true => simp [hfits] at h
    | false => rfl

theorem hadError_take_runFile (s : Session) (path : String)
    (contents : Except ReadFault ByteArray) :
    (s.take (runFile path contents)).2.hadError =
      markAfter s.hadError ((Request.runFile path contents).events s) := by
  rw [Request.events]
  -- A file that gives no source leaves the session as it was, and is no event either.
  cases hsource : sourceOf path contents with
  | error e =>
    rw [take_runFile_of_error hsource]
    rfl
  | ok source =>
    have hran := congrArg Prod.snd (take_runFile_of_ok hsource s)
    exact hadError_eq_markAfter_scanEvents _ hran

theorem hadError_take_writeOut (s : Session) (text : String) :
    (s.take (writeOut text)).2.hadError = s.hadError := by
  rw [take_writeOut]

/-- A prompt marks what its lines report, and each line that is dealt with clears the mark. -/
theorem hadError_take_promptLines (s : Session) (lines : List (List UInt8)) :
    (s.take (promptLines lines)).2.hadError = markAfter s.hadError (promptEvents lines s) := by
  induction lines generalizing s with
  | nil =>
    -- The end of the input is no event.
    rw [promptLines, promptEvents]
    show _ = s.hadError
    cases hasked : (s.take (writeOut "> ")).1 with
    | error e => rw [take_bind_of_error hasked, hadError_take_writeOut]
    | ok a =>
      rw [take_bind_of_ok hasked, endPrompt, take_bind, take_record]
      dsimp only
      rw [hadError_take_writeOut, hadError_take_writeOut]
  | cons line lines ih =>
    rw [promptLines, promptEvents, ← hadError_take_writeOut s "> "]
    cases hasked : (s.take (writeOut "> ")).1 with
    | error e =>
      rw [take_bind_of_error hasked]
      rfl
    | ok a =>
      rw [take_bind_of_ok hasked]
      -- Only what the session is now matters from here on, not how it was asked.
      generalize (s.take (writeOut "> ")).2 = asked
      cases htext : String.fromUTF8? line.toByteArray with
      | none =>
        rw [take_bind_of_error (by rw [take_promptLine_of_not_utf8 htext]),
          take_promptLine_of_not_utf8 htext]
        rfl
      | some text =>
        dsimp only
        have hran := hadError_take_run asked (trimLineEnd text)
        rw [markAfter_append, ← hran]
        -- What the line reports comes first, and it is cleared only if the run succeeds.
        cases hrun : (asked.take (run (trimLineEnd text))).1 with
        | error e =>
          have hline := take_promptLine_of_text htext asked
          rw [take_bind_of_error hrun] at hline
          rw [take_bind_of_error (by rw [hline]), hline]
          rfl
        | ok a =>
          -- The line is dealt with, so the mark is cleared and the other lines follow.
          have hline := take_promptLine_of_text htext asked
          rw [take_bind_of_ok hrun, take_mark] at hline
          rw [take_bind_of_ok (by rw [hline]), ih, hline]
          rfl

/-- Events of a prompt end unless its first line is dealt with. -/
theorem promptEvents_cons (line : List UInt8) (lines : List (List UInt8)) (s : Session) :
    promptEvents (line :: lines) s = [] ∨
      ∃ front s', promptEvents (line :: lines) s = front ++ .answered :: promptEvents lines s' := by
  rw [promptEvents]
  -- Where nothing is dealt with, the run has failed, and then it has reported nothing.
  generalize (s.take (writeOut "> ")).2 = asked
  cases (s.take (writeOut "> ")).1 with
  | error e => exact .inl rfl
  | ok a =>
    cases String.fromUTF8? line.toByteArray with
    | none => exact .inl rfl
    | some text =>
      dsimp only
      cases hrun : (asked.take (run (trimLineEnd text))).1 with
      | error e => exact .inl (by rw [scanEvents_run_of_error hrun]; rfl)
      | ok a => exact .inr ⟨_, _, rfl⟩

/-- What the lines of a prompt report is cleared when they are dealt with, so a prompt never sets
    the mark, and it clears the mark with the first line that is dealt with. -/
theorem markAfter_promptEvents (marked : Bool) (s : Session) (lines : List (List UInt8)) :
    markAfter marked (promptEvents lines s) =
      (marked && decide (.answered ∉ promptEvents lines s)) := by
  induction lines generalizing marked s with
  | nil => simp [promptEvents, markAfter]
  | cons line lines ih =>
    obtain hnone | ⟨front, s', hfront⟩ := promptEvents_cons line lines s
    · simp [hnone, markAfter]
    · -- The answer clears what came before it, so the rest begins without a mark.
      rw [hfront, List.append_cons, markAfter_append, markAfter_append, ih]
      simp [markAfter]

theorem hadError_take_map {α β : Type} (s : Session) (step : SessionStep α) (f : α → β) :
    (s.take (do return f (← step))).2.hadError = (s.take step).2.hadError := by
  rw [take_map]

/-- The events of a request decide what it does to the mark. -/
theorem hadError_take_request (s : Session) (r : Request) :
    (s.take r.step).2.hadError = markAfter s.hadError (r.events s) := by
  cases r with
  | run source =>
    exact (hadError_take_map s _ fun _ => none).trans (hadError_take_run s source)
  | error line message =>
    exact (hadError_take_map s _ fun _ => none).trans (hadError_take_report s line "" message)
  | report line place message =>
    exact (hadError_take_map s _ fun _ => none).trans (hadError_take_report s line place message)
  | runFile path contents =>
    exact (hadError_take_map s _ some).trans (hadError_take_runFile s path contents)
  | prompt input =>
    exact (hadError_take_map s _ fun _ => none).trans (hadError_take_promptLines s _)

/-- The events of a history decide the mark after it. -/
theorem hadError_after (s : Session) (requests : List Request) :
    (s.after requests).hadError = markAfter s.hadError (history s requests) := by
  -- Each request begins where the one before it ended, and so do its events.
  induction requests generalizing s with
  | nil => rfl
  | cons r requests ih =>
    rw [history, markAfter_append, ← hadError_take_request, ← ih]
    rfl

/-! ## Failures and successes -/

theorem eq_error_of_map_eq_error {α β : Type} {result : Except SessionError α} {f : α → β}
    {e : SessionError} (h : result.map f = .error e) : result = .error e := by
  cases result with
  | ok a => cases h
  | error e' =>
    cases h
    rfl

/-- A request does not set the mark by failing if the step that it is made of does not. -/
theorem hadError_of_take_map_error {α β : Type} {s : Session} {step : SessionStep α} {f : α → β}
    {e : SessionError}
    (hkept : (s.take step).1 = .error e → (s.take step).2.hadError = s.hadError)
    (h : (s.take (do return f (← step))).1 = .error e)
    (hmarked : (s.take (do return f (← step))).2.hadError = true) : s.hadError = true := by
  rw [take_map] at h hmarked
  rw [← hkept (eq_error_of_map_eq_error h)]
  exact hmarked

/-- A run that fails leaves the mark as it is. -/
theorem hadError_take_run_of_error {s : Session} {source : String} {e : SessionError}
    (h : (s.take (run source)).1 = .error e) : (s.take (run source)).2.hadError = s.hadError := by
  -- Its events are none, so the mark is that of before.
  rw [hadError_take_run, scanEvents_run_of_error h]
  rfl

theorem hadError_take_report_of_error {s : Session} {line : Nat} {place message : String}
    {e : SessionError} (h : (s.take (report line place message)).1 = .error e) :
    (s.take (report line place message)).2.hadError = s.hadError := by
  rw [take_report] at h ⊢
  -- A report that fails has not fitted, and only one that fits sets the mark.
  cases hfits : (s.err.write (diagnostic line place message)).1 with
  | true => simp [hfits] at h
  | false => simp

theorem hadError_take_runFile_of_error {s : Session} {path : String}
    {contents : Except ReadFault ByteArray} {e : SessionError}
    (h : (s.take (runFile path contents)).1 = .error e) :
    (s.take (runFile path contents)).2.hadError = s.hadError := by
  cases hsource : sourceOf path contents with
  | error e' => rw [take_runFile_of_error hsource]
  | ok source =>
    rw [take_runFile_of_ok hsource] at h ⊢
    exact hadError_take_run_of_error (eq_error_of_map_eq_error h)

/-- A request that fails does not set the mark. -/
theorem hadError_of_take_request_error {s : Session} {r : Request} {e : SessionError}
    (h : (s.take r.step).1 = .error e) (hmarked : (s.take r.step).2.hadError = true) :
    s.hadError = true := by
  -- All but a prompt fail without a mark of their own. A prompt only ever clears marks.
  cases r with
  | run source => exact hadError_of_take_map_error hadError_take_run_of_error h hmarked
  | error line message =>
    exact hadError_of_take_map_error hadError_take_report_of_error h hmarked
  | report line place message =>
    exact hadError_of_take_map_error hadError_take_report_of_error h hmarked
  | runFile path contents =>
    exact hadError_of_take_map_error hadError_take_runFile_of_error h hmarked
  | prompt input =>
    rw [hadError_take_request, Request.events, markAfter_promptEvents, Bool.and_eq_true] at hmarked
    exact hmarked.1

theorem markAfter_true_reportEvents {α : Type} (s : Session) (step : SessionStep α)
    (line : String) : markAfter true (reportEvents s step line) = true := by
  -- The one event there can be sets the mark.
  rw [reportEvents]
  split <;> rfl

theorem markAfter_true_scanEvents {α : Type} (s : Session) (step : SessionStep α)
    (source : String) : markAfter true (scanEvents s step source) = true := by
  rw [scanEvents]
  split
  · rfl
  · exact markAfter_true_reportEvents ..

/-- Only a prompt clears the mark. -/
theorem hadError_take_request_of_hadError {s : Session} {r : Request}
    (hr : ∀ input, r ≠ .prompt input) (h : s.hadError = true) :
    (s.take r.step).2.hadError = true := by
  -- Only a prompt has events that answer, and without them a mark stays.
  rw [hadError_take_request, h]
  cases r with
  | run source => exact markAfter_true_scanEvents ..
  | error line message => exact markAfter_true_reportEvents ..
  | report line place message => exact markAfter_true_reportEvents ..
  | runFile path contents =>
    rw [Request.events]
    split
    · exact markAfter_true_scanEvents ..
    · rfl
  | prompt input => exact absurd rfl (hr input)

/-- The status of a file is the mark after it. -/
theorem status_eq_failed_iff {s : Session} {path : String} {contents : Except ReadFault ByteArray}
    {status : RunStatus} (h : (s.take (runFile path contents)).1 = .ok status) :
    status = .failed ↔ (s.take (runFile path contents)).2.hadError = true := by
  cases hsource : sourceOf path contents with
  | error e =>
    rw [take_runFile_of_error hsource] at h
    cases h
  | ok source =>
    rw [take_runFile_of_ok hsource] at h ⊢
    dsimp only at h ⊢
    -- Whether the run of the source fails decides whether there is a status at all.
    generalize Session.take _ (run source) = ran at h ⊢
    obtain ⟨_ | _, after⟩ := ran
    · cases h
    · cases h
      cases after.hadError <;> simp

/-- At every point of a history a session has the mark of an error exactly if a diagnostic was
    written in full and no line of a prompt was dealt with behind the last one. A request that fails
    does not set the mark. A request that is no prompt does not clear it, so a file fails after an
    earlier error even if nothing is wrong with it. A prompt leaves the mark as it is if it deals
    with no line, and clears it otherwise. The status of a file is the mark after it. -/
theorem hadError_iff_of_history (outLimit errLimit : Option Nat) (requests : List Request) :
    let start := fresh outLimit errLimit
    let s := start.after requests
    (s.hadError = true ↔ ∃ before after, history start requests = before ++ .reported :: after ∧
      .answered ∉ after) ∧
    (∀ r : Request, ∀ e, (s.take r.step).1 = .error e → (s.take r.step).2.hadError = true →
      s.hadError = true) ∧
    (∀ r : Request, (∀ input, r ≠ .prompt input) → s.hadError = true →
      (s.take r.step).2.hadError = true) ∧
    (∀ input, (.answered ∉ (Request.prompt input).events s →
        (s.take (prompt input)).2.hadError = s.hadError) ∧
      (.answered ∈ (Request.prompt input).events s →
        (s.take (prompt input)).2.hadError = false)) ∧
    ∀ path contents status, (s.take (runFile path contents)).1 = .ok status →
      (status = .failed ↔ (s.take (runFile path contents)).2.hadError = true) ∧
      (s.hadError = true → status = .failed) := by
  intro start s
  refine ⟨?_, fun r e => hadError_of_take_request_error,
    fun r => hadError_take_request_of_hadError, ?_, ?_⟩
  · rw [hadError_after]
    exact markAfter_false_eq_true_iff
  · intro input
    have hmark := hadError_take_promptLines s (byteLines input.data.toList)
    rw [markAfter_promptEvents] at hmark
    constructor
    · intro (hanswered : .answered ∉ promptEvents (byteLines input.data.toList) s)
      exact hmark.trans (by simp [hanswered])
    · intro (hanswered : .answered ∈ promptEvents (byteLines input.data.toList) s)
      exact hmark.trans (by simp [hanswered])
  · intro path contents status hstatus
    have hiff := status_eq_failed_iff hstatus
    refine ⟨hiff, fun hmarked => hiff.2 ?_⟩
    -- A file is no prompt, so it keeps the mark that was there before it.
    have hkept := hadError_take_request_of_hadError (r := .runFile path contents)
      (fun input h => by cases h) hmarked
    exact (hadError_take_map s _ some).symm.trans hkept

end LoxLexer.Session
