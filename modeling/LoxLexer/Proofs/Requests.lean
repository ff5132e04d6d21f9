import LoxLexer.Session

/-!
# Requests to a session

A session is asked to run texts and files, to report errors and to prompt for lines. What such a
request sends to the sinks can be told from the primitive steps that it is made of, in the order in
which it takes them, without looking at how much the sinks can take: `Sends` relates a step to the
writes it makes when none is refused.

## Key results

- `Session.take_write`: a write changes one sink and nothing else
- `Sending.bind`: a sequence of steps sends what its steps send
- `Session.Request.sending`: every request sends some writes
-/

namespace LoxLexer

namespace Session

/-! ## Requests -/

/-- Something that a session is asked to do. -/
inductive Request where
  | run (source : String)
  | error (line : Nat) (message : String)
  | report (line : Nat) (place message : String)
  | runFile (path : String) (contents : Except ReadFault ByteArray)
  | prompt (input : ByteArray)

/-- The step that a request asks for. Only running a file has a status. -/
def Request.step : Request → SessionStep (Option RunStatus)
  | run source => do
    Session.run source
    return none
  | error line message => do
    Session.error line message
    return none
  | report line place message => do
    Session.report line place message
    return none
  | runFile path contents => return some (← Session.runFile path contents)
  | prompt input => do
    Session.prompt input
    return none

end Session

/-! ## Writes -/

/-- One of the two sinks of a session. -/
inductive Channel where
  /-- Where tokens are listed. -/
  | out
  /-- Where errors are reported. -/
  | err
deriving DecidableEq

/-- A text that is sent to a sink. -/
structure Write where
  channel : Channel
  text : String

namespace Session

/-- The sink of a channel. -/
def sink (s : Session) : Channel → Sink
  | .out => s.out
  | .err => s.err

/-- The session with another sink for a channel. -/
def setSink (s : Session) : Channel → Sink → Session
  | .out, sink => { s with out := sink }
  | .err, sink => { s with err := sink }

@[simp] theorem sink_setSink_self (s : Session) (channel : Channel) (sink : Sink) :
    (s.setSink channel sink).sink channel = sink := by
  cases channel <;> rfl

theorem sink_setSink_of_ne (s : Session) {channel other : Channel} (h : other ≠ channel)
    -- There are two channels, and they have a sink each.
    (sink : Sink) : (s.setSink channel sink).sink other = s.sink other := by
  cases channel with
  | out =>
    cases other with
    | out => exact absurd rfl h
    | err => rfl
  | err =>
    cases other with
    | out => rfl
    | err => exact absurd rfl h

@[simp] theorem hadError_setSink (s : Session) (channel : Channel) (sink : Sink) :
    (s.setSink channel sink).hadError = s.hadError := by
  cases channel <;> rfl

/-- Makes a write. -/
def write (w : Write) : SessionStep Unit :=
  match w.channel with
  | .out => writeOut w.text
  | .err => writeErr w.text

/-- A write changes the sink of its channel only, and succeeds if the text fits. -/
theorem take_write (s : Session) (w : Write) :
    s.take (write w) =
      (if ((s.sink w.channel).write w.text).1 then .ok () else .error .sinkFull,
        s.setSink w.channel ((s.sink w.channel).write w.text).2) := by
  obtain ⟨channel, text⟩ := w
  cases channel with
  | out => exact take_writeOut s text
  | err => exact take_writeErr s text

end Session

/-! ## What a step sends -/

/-- What a step sends if no write is refused: begun with or without the mark of an error, it makes
    these writes, in order, has this result and leaves the mark in this state. -/
inductive Sends : {α : Type} → SessionStep α → Bool → List Write → Except SessionError α →
    Bool → Prop where
  | pure {α : Type} (a : α) (marked : Bool) : Sends (pure a) marked [] (.ok a) marked
  | throw {α : Type} (e : SessionError) (marked : Bool) :
      Sends (throw e : SessionStep α) marked [] (.error e) marked
  | write (w : Write) (marked : Bool) : Sends (Session.write w) marked [w] (.ok ()) marked
  | mark (hadError marked : Bool) : Sends (Session.mark hadError) marked [] (.ok ()) hadError
  | record (records : List LogRecord) (marked : Bool) :
      Sends (Session.record records) marked [] (.ok ()) marked
  /-- Of the session itself only the mark is read. -/
  | readMark {α : Type} (f : Bool → α) (marked : Bool) :
      Sends (return f (← get).hadError) marked [] (.ok (f marked)) marked
  | bind {α β : Type} {first : SessionStep α} {second : α → SessionStep β}
      {marked marked' marked'' : Bool} {writes writes' : List Write} {a : α}
      {result : Except SessionError β} (h : Sends first marked writes (.ok a) marked')
      (h' : Sends (second a) marked' writes' result marked'') :
      Sends (first >>= second) marked (writes ++ writes') result marked''
  | bindError {α β : Type} {first : SessionStep α} {second : α → SessionStep β}
      {marked marked' : Bool} {writes : List Write} {e : SessionError}
      (h : Sends first marked writes (.error e) marked') :
      Sends (first >>= second) marked writes (.error e) marked'

/-- The step sends something, however it begins. -/
def Sending {α : Type} (step : SessionStep α) : Prop :=
  ∀ marked, ∃ writes result marked', Sends step marked writes result marked'

section Sending

variable {α β : Type}

theorem Sending.pure (a : α) : Sending (pure a : SessionStep α) :=
  fun marked => ⟨_, _, _, .pure a marked⟩

theorem Sending.throw (e : SessionError) : Sending (throw e : SessionStep α) :=
  fun marked => ⟨_, _, _, .throw e marked⟩

/-- A sequence of steps sends what its steps send, up to the first that fails. -/
theorem Sending.bind {first : SessionStep α} {second : α → SessionStep β} (h : Sending first)
    (h' : ∀ a, Sending (second a)) : Sending (first >>= second) := by
  intro marked
  obtain ⟨writes, result, marked', hfirst⟩ := h marked
  -- The second step begins with the mark that the first one leaves.
  cases result with
  | ok a =>
    obtain ⟨writes', result, marked'', hsecond⟩ := h' a marked'
    exact ⟨_, _, _, hfirst.bind hsecond⟩
  | error e => exact ⟨_, _, _, hfirst.bindError⟩

end Sending

namespace Session

theorem sending_writeOut (text : String) : Sending (writeOut text) :=
  fun marked => ⟨_, _, _, .write ⟨.out, text⟩ marked⟩

theorem sending_writeErr (text : String) : Sending (writeErr text) :=
  fun marked => ⟨_, _, _, .write ⟨.err, text⟩ marked⟩

theorem sending_mark (hadError : Bool) : Sending (mark hadError) :=
  fun marked => ⟨_, _, _, .mark hadError marked⟩

theorem sending_record (records : List LogRecord) : Sending (record records) :=
  fun marked => ⟨_, _, _, .record records marked⟩

theorem sending_readMark {α : Type} (f : Bool → α) :
    Sending (return f (← get).hadError : SessionStep α) :=
  fun marked => ⟨_, _, _, .readMark f marked⟩

theorem sending_report (line : Nat) (place message : String) :
    Sending (report line place message) :=
  (sending_writeErr _).bind fun _ => sending_mark true

theorem sending_list (tokens : List Token) : Sending (list tokens) := by
  -- One write for each token, in their order.
  induction tokens with
  | nil => exact .pure ()
  | cons t tokens ih => exact (sending_writeOut _).bind fun _ => ih

theorem sending_run (source : String) : Sending (run source) := by
  apply (sending_record _).bind
  intro _
  -- The scan decides whether tokens are listed or an error is reported.
  split
  · exact sending_list _
  · exact sending_report _ _ _

theorem sending_runFile (path : String) (contents : Except ReadFault ByteArray) :
    Sending (runFile path contents) := by
  unfold runFile
  split
  -- A file that gives no source is refused before anything is sent.
  · exact .throw _
  · exact (sending_record _).bind fun _ => (sending_run _).bind fun _ =>
      sending_readMark fun marked => if marked then RunStatus.failed else .ok

theorem sending_promptLine (line : List UInt8) : Sending (promptLine line) := by
  unfold promptLine
  split
  · exact .throw _
  · exact (sending_run _).bind fun _ => sending_mark false

theorem sending_promptLines (lines : List (List UInt8)) : Sending (promptLines lines) := by
  -- Each line is asked for before it is dealt with, and the end of the input is asked for too.
  induction lines with
  | nil =>
    exact (sending_writeOut _).bind fun _ => (sending_record _).bind fun _ => sending_writeOut _
  | cons line lines ih =>
    exact (sending_writeOut _).bind fun _ => (sending_promptLine line).bind fun _ => ih

/-- Every request sends some writes. -/
theorem Request.sending (r : Request) : Sending r.step := by
  cases r with
  | run source => exact (sending_run source).bind fun _ => .pure _
  | error line message => exact (sending_report line "" message).bind fun _ => .pure _
  | report line place message => exact (sending_report line place message).bind fun _ => .pure _
  | runFile path contents => exact (sending_runFile path contents).bind fun _ => .pure _
  | prompt input => exact (sending_promptLines _).bind fun _ => .pure _

end Session

end LoxLexer
