import LoxLexer.Proofs.Effects
import LoxLexer.Proofs.Requests

/-!
# Full sinks

A sink with a limit cuts what it is sent, and the step that sends it stops there. Which writes a
step makes, and in which order, has nothing to do with the limits, so a step with limits does what
it does without them up to the first write that does not fit. Both sinks are followed at once, since
a prompt writes to them in turn and each has a limit of its own.

## Key results

- `Sink.write_of_fits`, `Sink.write_of_not_fits`: what a sink takes of a text
- `Session.accepts_or_stopsAt_of_sends`: a step makes all of its writes or stops at one of them
- `Session.take_request_of_limits`: a request with limits and without
-/

namespace LoxLexer

/-! ## One sink -/

namespace Sink

/-- That many bytes fit. -/
def Fits (s : Sink) (size : Nat) : Prop := ∀ room, s.room = some room → size ≤ room

/-- The sink takes all of the bytes and becomes another one. -/
structure Accepts (s : Sink) (bytes : List UInt8) (s' : Sink) : Prop where
  fits : s.Fits bytes.length
  contents_eq : s'.contents = s.contents ++ bytes
  room_eq : s'.room = s.room.map (· - bytes.length)

theorem Accepts.refl (s : Sink) : s.Accepts [] s where
  fits := fun room _ => Nat.zero_le room
  contents_eq := (List.append_nil _).symm
  room_eq := by simp

theorem Accepts.trans {s s' s'' : Sink} {a b : List UInt8} (h : s.Accepts a s')
    (h' : s'.Accepts b s'') : s.Accepts (a ++ b) s'' := by
  constructor
  · -- What the first bytes leave of the room is enough for the others.
    intro room hroom
    have hfits := h.fits room hroom
    have hfits' := h'.fits (room - a.length) (by rw [h.room_eq, hroom]; rfl)
    rw [List.length_append]
    omega
  · rw [h'.contents_eq, h.contents_eq, List.append_assoc]
  · rw [h'.room_eq, h.room_eq, Option.map_map, List.length_append]
    congr 1
    funext room
    exact Nat.sub_sub ..

/-- A text that fits is accepted. -/
theorem write_of_fits {s : Sink} {text : String} (h : s.Fits text.byteList.length) :
    (s.write text).1 = true ∧ s.Accepts text.byteList (s.write text).2 := by
  -- A sink without a limit takes everything.
  obtain ⟨bytes, _ | room⟩ := s
  · exact ⟨rfl, h, by simp [write, contents, String.byteList], rfl⟩
  · have hle : text.utf8ByteSize ≤ room := String.length_byteList text ▸ h room rfl
    refine ⟨decide_eq_true hle, h, ?_, ?_⟩
    · have htake : text.byteList.take room = text.byteList :=
        List.take_of_length_le (h room rfl)
      simpa [write, contents, String.byteList] using htake
    · simp [write, String.length_byteList]

/-- Of a text that does not fit, the sink takes what does, and then it is full. -/
theorem write_of_not_fits {s : Sink} {text : String} (h : ¬ s.Fits text.byteList.length) :
    ∃ room, s.room = some room ∧ room < text.byteList.length ∧ (s.write text).1 = false ∧
      (s.write text).2.contents = s.contents ++ text.byteList.take room ∧
      (s.write text).2.room = some 0 := by
  -- Only a sink with a limit can refuse, and it has less room than the text has bytes.
  obtain ⟨bytes, _ | room⟩ := s
  · exact absurd (fun room hroom => by cases hroom) h
  · have hlt : room < text.byteList.length := by
      apply Nat.lt_of_not_le
      intro hle
      exact h fun room' hroom => by cases hroom; exact hle
    have hsize : room < text.utf8ByteSize := String.length_byteList text ▸ hlt
    refine ⟨room, rfl, hlt, decide_eq_false (Nat.not_le.2 hsize), ?_, ?_⟩
    · simp [write, contents, String.byteList]
    · simp [write, Nat.sub_eq_zero_of_le (Nat.le_of_lt hsize)]

end Sink

/-! ## Writes to both sinks -/

/-- The bytes that writes send to a channel. -/
def sentTo (channel : Channel) (writes : List Write) : List UInt8 :=
  (writes.filter (·.channel = channel)).flatMap (·.text.byteList)

theorem sentTo_append (channel : Channel) (a b : List Write) :
    sentTo channel (a ++ b) = sentTo channel a ++ sentTo channel b := by
  simp [sentTo]

theorem sentTo_self (w : Write) : sentTo w.channel [w] = w.text.byteList := by
  simp [sentTo]

theorem sentTo_of_ne {channel : Channel} {w : Write} (h : channel ≠ w.channel) :
    sentTo channel [w] = [] := by
  simp [sentTo, h.symm]

namespace Session

variable {s s' s'' : Session} {writes writes' before after : List Write} {refused : Write}

/-- Both sinks take all of what is sent to them. -/
def Accepts (s : Session) (writes : List Write) (s' : Session) : Prop :=
  ∀ channel, (s.sink channel).Accepts (sentTo channel writes) (s'.sink channel)

/-- The first write that does not fit fills its sink to the limit, with the part that does fit, and
    nothing is written after it. -/
structure StopsAt (s : Session) (before : List Write) (refused : Write) (after : List Write)
    (s' : Session) : Prop where
  full : ∃ room, (s.sink refused.channel).room = some room ∧
    (sentTo refused.channel before).length ≤ room ∧
    room < (sentTo refused.channel (before ++ [refused])).length ∧
    (s'.sink refused.channel).contents = (s.sink refused.channel).contents ++
      (sentTo refused.channel (before ++ refused :: after)).take room ∧
    (s'.sink refused.channel).room = some 0
  other : ∀ channel, channel ≠ refused.channel →
    (s.sink channel).Accepts (sentTo channel before) (s'.sink channel)

theorem Accepts.refl (s : Session) : s.Accepts [] s := fun channel => .refl (s.sink channel)

theorem Accepts.trans (h : s.Accepts writes s') (h' : s'.Accepts writes' s'') :
    s.Accepts (writes ++ writes') s'' := by
  -- What is sent is in order for each channel by itself.
  intro channel
  rw [sentTo_append]
  exact (h channel).trans (h' channel)

/-- What is sent behind the refused write makes no difference. -/
theorem StopsAt.append (h : s.StopsAt before refused after s') (more : List Write) :
    s.StopsAt before refused (after ++ more) s' := by
  obtain ⟨⟨room, hroom, hle, hlt, hcontents, hfull⟩, hother⟩ := h
  refine ⟨⟨room, hroom, hle, hlt, ?_, hfull⟩, hother⟩
  -- The sink is full before the end of the refused write, so nothing behind it shows.
  have hlength : room ≤ (sentTo refused.channel (before ++ refused :: after)).length := by
    rw [List.append_cons, sentTo_append, List.length_append]
    omega
  have hsplit : before ++ refused :: (after ++ more) = before ++ refused :: after ++ more := by simp
  rw [hcontents, hsplit, sentTo_append _ (before ++ refused :: after),
    List.take_append_of_le_length hlength]

/-- Writes that are accepted first stand before the refused write. -/
theorem Accepts.stopsAt (h : s.Accepts writes s') (h' : s'.StopsAt before refused after s'') :
    s.StopsAt (writes ++ before) refused after s'' := by
  obtain ⟨⟨room', hroom', hle, hlt, hcontents, hfull⟩, hother⟩ := h'
  constructor
  · -- The room of the sink is counted from before the accepted writes.
    have haccepts := h refused.channel
    rw [haccepts.room_eq] at hroom'
    obtain ⟨room, hroom, rfl⟩ := Option.map_eq_some_iff.1 hroom'
    have hfits := haccepts.fits room hroom
    simp only [sentTo_append, List.length_append] at hle hlt ⊢
    refine ⟨room, hroom, by omega, by omega, ?_, hfull⟩
    have htake : (sentTo refused.channel writes).take room = sentTo refused.channel writes :=
      List.take_of_length_le hfits
    rw [hcontents, haccepts.contents_eq, List.append_assoc, List.append_assoc, List.take_append,
      htake, sentTo_append]
  · intro channel hne
    rw [sentTo_append]
    exact (h channel).trans (hother channel hne)

/-! ## Limits -/

/-- A write is accepted, or the step stops at it. -/
theorem accepts_or_stopsAt_write (s : Session) (w : Write) :
    ((s.take (write w)).1 = .ok () ∧ s.Accepts [w] (s.take (write w)).2) ∨
      ((s.take (write w)).1 = .error .sinkFull ∧ s.StopsAt [] w [] (s.take (write w)).2) := by
  rw [take_write]
  -- Whether the text fits its sink decides, and the other sink is left alone in either case.
  by_cases hfits : (s.sink w.channel).Fits w.text.byteList.length
  · obtain ⟨hwritten, haccepts⟩ := Sink.write_of_fits hfits
    refine .inl ⟨by rw [hwritten]; rfl, ?_⟩
    intro channel
    by_cases hchannel : channel = w.channel
    · rw [hchannel, sentTo_self, sink_setSink_self]
      exact haccepts
    · rw [sentTo_of_ne hchannel, sink_setSink_of_ne s hchannel]
      exact .refl _
  · obtain ⟨room, hroom, hlt, hrefused, hcontents, hfull⟩ := Sink.write_of_not_fits hfits
    refine .inr ⟨by rw [hrefused]; rfl, ?_, ?_⟩
    · rw [List.nil_append, sentTo_self, sink_setSink_self]
      exact ⟨room, hroom, Nat.zero_le _, hlt, hcontents, hfull⟩
    · intro channel hchannel
      rw [sink_setSink_of_ne s hchannel]
      exact .refl _

/-- A step makes all of its writes and ends as if there were no limits, or it stops at the first
    write that does not fit. -/
theorem accepts_or_stopsAt_of_sends {α : Type} {step : SessionStep α} {marked marked' : Bool}
    {result : Except SessionError α} (h : Sends step marked writes result marked')
    (hmarked : s.hadError = marked) :
    ((s.take step).1 = result ∧ (s.take step).2.hadError = marked' ∧
        s.Accepts writes (s.take step).2) ∨
      ((s.take step).1 = .error .sinkFull ∧ ∃ before refused after,
        writes = before ++ refused :: after ∧
          s.StopsAt before refused after (s.take step).2) := by
  -- Along the parts of the step. The mark is carried along since the status of a file is read off
  -- it.
  induction h generalizing s with
  | pure a marked => exact .inl ⟨rfl, hmarked, .refl s⟩
  | throw e marked => exact .inl ⟨rfl, hmarked, .refl s⟩
  | write w marked =>
    obtain ⟨hresult, haccepts⟩ | ⟨hresult, hstops⟩ := accepts_or_stopsAt_write s w
    · have hmark : (s.take (Session.write w)).2.hadError = s.hadError := by
        rw [take_write, hadError_setSink]
      exact .inl ⟨hresult, hmark.trans hmarked, haccepts⟩
    · exact .inr ⟨hresult, [], w, [], rfl, hstops⟩
  | mark hadError marked =>
    refine .inl ⟨rfl, rfl, ?_⟩
    rintro (_ | _) <;> exact .refl _
  | record records marked =>
    refine .inl ⟨rfl, hmarked, ?_⟩
    rintro (_ | _) <;> exact .refl _
  | readMark f marked =>
    subst hmarked
    exact .inl ⟨rfl, rfl, .refl s⟩
  | @bind _ _ _ second _ _ _ writes writes' _ _ _ _ ih ih' =>
    obtain ⟨hresult, hmark, haccepts⟩ | ⟨hresult, before, refused, after, rfl, hstops⟩ :=
      ih hmarked
    · rw [take_bind_of_ok hresult]
      obtain ⟨hresult', hmark', haccepts'⟩ | ⟨hresult', before, refused, after, rfl, hstops⟩ :=
        ih' hmark
      · exact .inl ⟨hresult', hmark', haccepts.trans haccepts'⟩
      · exact .inr ⟨hresult', writes ++ before, refused, after, by simp,
          haccepts.stopsAt hstops⟩
    · -- The second part is never begun, and its writes are among those that are left out.
      rw [take_bind_of_error hresult]
      exact .inr ⟨rfl, before, refused, after ++ writes', by simp, hstops.append writes'⟩
  | bindError _ ih =>
    obtain ⟨hresult, hmark, haccepts⟩ | ⟨hresult, before, refused, after, rfl, hstops⟩ :=
      ih hmarked
    · rw [take_bind_of_error hresult]
      exact .inl ⟨rfl, hmark, haccepts⟩
    · rw [take_bind_of_error hresult]
      exact .inr ⟨rfl, before, refused, after, rfl, hstops⟩

/-- The session with sinks that take everything. -/
def unlimited (s : Session) : Session :=
  { s with out := { s.out with room := none }, err := { s.err with room := none } }

theorem room_sink_unlimited (s : Session) (channel : Channel) :
    (s.unlimited.sink channel).room = none := by
  cases channel <;> rfl

theorem contents_sink_unlimited (s : Session) (channel : Channel) :
    (s.unlimited.sink channel).contents = (s.sink channel).contents := by
  cases channel <;> rfl

/-- Without limits a step makes all of its writes. -/
theorem accepts_unlimited_of_sends {α : Type} {step : SessionStep α} {marked' : Bool}
    {result : Except SessionError α} (h : Sends step s.hadError writes result marked') :
    (s.unlimited.take step).1 = result ∧
      s.unlimited.Accepts writes (s.unlimited.take step).2 := by
  obtain ⟨hresult, -, haccepts⟩ | ⟨-, before, refused, after, -, hstops⟩ :=
    accepts_or_stopsAt_of_sends (s := s.unlimited) h rfl
  · exact ⟨hresult, haccepts⟩
  · -- There is no limit to stop at.
    obtain ⟨room, hroom, -⟩ := hstops.full
    rw [room_sink_unlimited] at hroom
    cases hroom

/-- Where a step stops, what it sends does not fit. -/
theorem StopsAt.not_fits (h : s.StopsAt before refused after s') :
    ¬ (s.sink refused.channel).Fits
      (sentTo refused.channel (before ++ refused :: after)).length := by
  -- The writes up to the refused one are too many already.
  obtain ⟨room, hroom, -, hlt, -⟩ := h.full
  intro hfits
  have hle := hfits room hroom
  rw [List.append_cons, sentTo_append, List.length_append] at hle
  omega

/-- What is written before a step stops is a prefix of what it sends. -/
theorem StopsAt.exists_prefix (h : s.StopsAt before refused after s') (channel : Channel) :
    ∃ added, (s'.sink channel).contents = (s.sink channel).contents ++ added ∧
      added <+: sentTo channel (before ++ refused :: after) := by
  -- The sink that refuses has the beginning of it all, and the other has all before the refusal.
  by_cases hchannel : channel = refused.channel
  · subst hchannel
    obtain ⟨room, -, -, -, hcontents, -⟩ := h.full
    exact ⟨_, hcontents, List.take_prefix _ _⟩
  · rw [sentTo_append]
    exact ⟨_, (h.other channel hchannel).contents_eq, List.prefix_append _ _⟩

/-- A request to a session sends writes to its sinks, in an order that has nothing to do with how
    much the sinks can take. Without limits all of the writes are made. With limits the step
    succeeds exactly if it succeeds without them and all that is sent to each sink fits; each sink
    gets a prefix of what is sent to it; and if anything does not fit, the step fails with a full
    sink, at the first write that does not fit: the sink that refuses this write is filled exactly
    to its limit, and the other has what is sent to it before this write. -/
theorem take_request_of_limits (r : Request) (s : Session) :
    ∃ writes result marked, Sends r.step s.hadError writes result marked ∧
      ((s.unlimited.take r.step).1 = result ∧
        ∀ channel, ((s.unlimited.take r.step).2.sink channel).contents =
          (s.sink channel).contents ++ sentTo channel writes) ∧
      ((∃ a, (s.take r.step).1 = .ok a) ↔ (∃ a, (s.unlimited.take r.step).1 = .ok a) ∧
        ∀ channel, (s.sink channel).Fits (sentTo channel writes).length) ∧
      (∀ channel, ∃ added, ((s.take r.step).2.sink channel).contents =
        (s.sink channel).contents ++ added ∧ added <+: sentTo channel writes) ∧
      ((∃ channel, ¬ (s.sink channel).Fits (sentTo channel writes).length) →
        (s.take r.step).1 = .error .sinkFull ∧ ∃ before refused after,
          writes = before ++ refused :: after ∧
            s.StopsAt before refused after (s.take r.step).2) := by
  obtain ⟨writes, result, marked, hsends⟩ := r.sending s.hadError
  obtain ⟨hunlimited, haccepted⟩ := accepts_unlimited_of_sends hsends
  refine ⟨writes, result, marked, hsends, ⟨hunlimited, fun channel => ?_⟩, ?_⟩
  · rw [(haccepted channel).contents_eq, contents_sink_unlimited]
  -- The writes are those of the step without limits, and they are accepted up to the first refusal.
  obtain ⟨hresult, -, haccepts⟩ | ⟨hresult, before, refused, after, rfl, hstops⟩ :=
    accepts_or_stopsAt_of_sends hsends rfl
  · -- Everything fits, so the limits make no difference.
    have hfits (channel : Channel) := (haccepts channel).fits
    refine ⟨?_, fun channel => ⟨_, (haccepts channel).contents_eq, List.prefix_rfl⟩, ?_⟩
    · rw [hresult, hunlimited]
      exact (and_iff_left hfits).symm
    · rintro ⟨channel, hnot⟩
      exact absurd (hfits channel) hnot
  · refine ⟨?_, hstops.exists_prefix, fun _ => ⟨hresult, before, refused, after, rfl, hstops⟩⟩
    rw [hresult]
    apply iff_of_false
    · rintro ⟨a, ha⟩
      cases ha
    · exact fun h => hstops.not_fits (h.2 refused.channel)

end Session

end LoxLexer
