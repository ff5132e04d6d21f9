import LoxLexer.Proofs.Verdict

/-!
# What a failure leaves behind

A text is scanned to its end before any of its tokens is listed, so a scan that fails adds nothing
to the listing, however late its error is. What it adds to the reports is one line, whatever
character the error is about. A file that gives no source fails before anything in the session is
changed, and a file that gives one has the effect of running this source, but for the log. A file
gives a source if it can be read and its bytes are UTF-8 and at most a million, and the source is
then its text.

## Key results

- `sourceOf_eq_ok_iff`, `exists_sourceOf_eq_ok_iff`: which files give a source, and which source
- `Session.ran_afterRun`: what running a text lists and reports
- `Session.take_runFile_of_take_run`: a file that gives a source has the effect of this source
- `Session.failures_leave_listing`: what running texts and files leaves in any session
-/

namespace LoxLexer

/-! ## Files that give a source -/

/-- A file gives its text as a source, if its bytes are not too many. -/
theorem sourceOf_eq_ok_iff {path text : String} {contents : Except ReadFault ByteArray} :
    sourceOf path contents = .ok text ↔
      contents = .ok text.toUTF8 ∧ text.toUTF8.size ≤ 1000000 := by
  cases contents with
  | error fault => simp [sourceOf]
  | ok bytes =>
    -- Bytes are the bytes of at most one text, the one that they decode to.
    rw [Except.ok.injEq, ← String.fromUTF8?_eq_some_iff]
    cases htext : String.fromUTF8? bytes with
    | none => simp [sourceOf_of_notUtf8 htext]
    | some text' =>
      obtain rfl := String.fromUTF8?_eq_some_iff.1 htext
      rw [sourceOf_of_text htext, Option.some.injEq]
      by_cases hsize : text'.toUTF8.size ≤ 1000000
      · rw [if_pos hsize, Except.ok.injEq]
        exact ⟨fun heq => ⟨heq, heq ▸ hsize⟩, And.left⟩
      · rw [if_neg hsize]
        refine iff_of_false (by simp) ?_
        rintro ⟨rfl, hle⟩
        exact hsize hle

/-- A file gives a source if it can be read, its bytes are UTF-8 and they are not too many. -/
theorem exists_sourceOf_eq_ok_iff {path : String} {contents : Except ReadFault ByteArray} :
    (∃ text, sourceOf path contents = .ok text) ↔
      ∃ bytes, contents = .ok bytes ∧ bytes.IsValidUTF8 ∧ bytes.size ≤ 1000000 := by
  simp only [sourceOf_eq_ok_iff]
  constructor
  · intro h
    obtain ⟨text, hcontents, hsize⟩ := h
    exact ⟨text.toUTF8, hcontents, text.isValidUTF8, hsize⟩
  · intro h
    obtain ⟨bytes, hcontents, hvalid, hsize⟩ := h
    -- The bytes are those of a text, and then this text has to be the source.
    obtain ⟨text, htext⟩ := String.exists_fromUTF8?_eq_some_iff.2 hvalid
    rw [String.fromUTF8?_eq_some_iff.1 htext] at hcontents hsize
    exact ⟨text, hcontents, hsize⟩

namespace Session

/-! ## Running a text -/

/-- What a session is after it has run a text. Either the text could be scanned and every token has
    been added to the listing with a line feed behind it, or it could not and one line has been
    added to the reports. -/
inductive Ran (s : Session) (source : String) (after : Session) : Prop where
  | scanned {tokens : List Token} (hscan : scan source = .ok tokens)
      (out_eq : after.out.contents =
        s.out.contents ++ tokens.flatMap fun t => t.display.byteList ++ [10])
      (err_eq : after.err = s.err) (hadError_eq : after.hadError = s.hadError)
  | faulty {e : ScanError} (hscan : scan source = .error e)
      (out_eq : after.out = s.out)
      (err_eq : after.err.contents = s.err.contents ++ (e.display.byteList ++ [10]))
      (lineFeed_not_mem : 10 ∉ e.display.byteList) (hadError_eq : after.hadError = true)

theorem byteList_listing (tokens : List Token) :
    (listing tokens).byteList = tokens.flatMap fun t => t.display.byteList ++ [10] := by
  have hline (t : Token) : (t.display ++ "\n").byteList = t.display.byteList ++ [10] :=
    String.byteList_append t.display "\n"
  -- The listing is texts, and its line feeds are bytes behind their bytes.
  simp only [listing, String.byteList_join, List.flatMap_map, hline]

theorem ran_afterRun (s : Session) (source : String) : s.Ran source (s.afterRun source) := by
  -- What is listed, reported and marked all depends on the scan alone.
  cases hscan : scan source with
  | ok tokens =>
    apply Ran.scanned hscan
    · rw [afterRun, hscan, Sink.contents_append, listed, byteList_listing]
    · rw [afterRun, hscan, reported, Sink.append_empty]
    · rw [afterRun, hscan]
      exact Bool.or_false s.hadError
  | error e =>
    apply Ran.faulty hscan
    · rw [afterRun, hscan, listed, Sink.append_empty]
    · rw [afterRun, hscan, Sink.contents_append, reported, String.byteList_append]
      rfl
    -- A message with a line feed would be more than one line.
    · rw [← List.count_eq_zero, String.count_lineFeed_byteList, List.count_eq_zero]
      exact ScanError.lineFeed_not_mem_display hscan
    · rw [afterRun, hscan]
      exact Bool.or_true s.hadError

/-! ## Running a file -/

/-- A file that gives a source leaves what this source leaves, but for a record in the log. -/
theorem take_runFile_of_take_run {path source : String} {contents : Except ReadFault ByteArray}
    (h : sourceOf path contents = .ok source) {s after : Session} (hs : s.Unlimited)
    (hrun : s.take (run source) = (.ok (), after)) :
    s.take (runFile path contents) =
      (.ok (if after.hadError then .failed else .ok),
        { after with
          log := s.log ++ (LogRecord.running path source.utf8ByteSize :: scanLog source) }) := by
  -- The two sessions differ only in the record that the file is run.
  rw [take_run hs] at hrun
  obtain rfl : s.afterRun source = after := congrArg Prod.snd hrun
  rw [take_runFile h hs, afterRun, Array.appendList_append]
  rfl

/-- Running a text succeeds in every session whose sinks take everything. A text that can be scanned
    is listed and changes nothing else of what was written and marked; one that cannot leaves the
    listing as it was and adds one line to the reports. Running a file fails and leaves the session
    as it was, or has the effect of running its text. The text is that of all bytes of the file, and
    there is one exactly if the file can be read, is UTF-8 and has at most a million bytes. -/
theorem failures_leave_listing {s : Session} (h : s.Unlimited) :
    (∀ source, ∃ after, s.take (run source) = (.ok (), after) ∧ s.Ran source after) ∧
    ∀ path contents,
      ((∃ e, sourceOf path contents = .error e ∧
          s.take (runFile path contents) = (.error (.source e), s)) ∨
        ∃ source after, sourceOf path contents = .ok source ∧
          s.take (run source) = (.ok (), after) ∧
          s.take (runFile path contents) =
            (.ok (if after.hadError then .failed else .ok),
              { after with
                log := s.log ++
                  (LogRecord.running path source.utf8ByteSize :: scanLog source) })) ∧
      ((∃ source, sourceOf path contents = .ok source) ↔
        ∃ bytes, contents = .ok bytes ∧ bytes.IsValidUTF8 ∧ bytes.size ≤ 1000000) ∧
      ∀ source, sourceOf path contents = .ok source → contents = .ok source.toUTF8 := by
  refine ⟨fun source => ⟨_, take_run h source, s.ran_afterRun source⟩, ?_⟩
  intro path contents
  refine ⟨?_, exists_sourceOf_eq_ok_iff, fun source hsource => (sourceOf_eq_ok_iff.1 hsource).1⟩
  cases hsource : sourceOf path contents with
  | error e => exact .inl ⟨e, rfl, take_runFile_of_error hsource s⟩
  | ok source =>
    have hrun := take_run h source
    exact .inr ⟨source, _, rfl, hrun, take_runFile_of_take_run hsource h hrun⟩

/-- An unexpected character behind a token, in a text and in a file, for a session that has asked
    for a line. -/
theorem failures_leave_listing_of_late_error :
    ∃ s after : Session, s.Unlimited ∧ s.out.contents = "> ".byteList ∧
      scan "(\n@" = .error (.unexpectedCharacter 1 '@') ∧
      s.take (run "(\n@") = (.ok (), after) ∧
      after.out = s.out ∧
      after.err.contents = "[line 1] Error: Unexpected character '@'.\n".byteList ∧
      (s.take (runFile "a.lox" (.ok "(\n@".toUTF8))).1 = .ok .failed ∧
      sourceOf "a.lox" (.ok ⟨#[0xFF]⟩) = .error (.unreadable "a.lox" .notUtf8) ∧
      (s.take (runFile "a.lox" (.ok ⟨#[0xFF]⟩))).2 = s := by
  -- The session has its prompt in the listing already.
  let s : Session := ⟨⟨"> ".toUTF8, none⟩, .empty none, false, #[]⟩
  have hs : s.Unlimited := ⟨rfl, rfl⟩
  have hscan : scan "(\n@" = .error (.unexpectedCharacter 1 '@') := by with_unfolding_all rfl
  have hbroken : sourceOf "a.lox" (.ok ⟨#[0xFF]⟩) = .error (.unreadable "a.lox" .notUtf8) := by
    with_unfolding_all rfl
  obtain ⟨hrun, hfile⟩ := failures_leave_listing hs
  obtain ⟨after, htake, hran⟩ := hrun "(\n@"
  cases hran with
  | scanned hscan' => cases hscan.symm.trans hscan'
  | faulty hscan' out_eq err_eq _ hadError_eq =>
    cases hscan.symm.trans hscan'
    have hread : sourceOf "a.lox" (.ok "(\n@".toUTF8) = .ok "(\n@" :=
      sourceOf_eq_ok_iff.2 ⟨rfl, by decide⟩
    refine ⟨s, after, hs, rfl, hscan, htake, out_eq, err_eq, ?_, hbroken, ?_⟩
    · obtain ⟨_, he, _⟩ | ⟨source, after', hsource, htake', hfile⟩ :=
        (hfile "a.lox" (.ok "(\n@".toUTF8)).1
      · cases hread.symm.trans he
      · cases hread.symm.trans hsource
        cases htake.symm.trans htake'
        rw [hfile, hadError_eq]
        rfl
    · obtain ⟨_, _, hfile⟩ | ⟨_, _, hsource, _⟩ := (hfile "a.lox" (.ok ⟨#[0xFF]⟩)).1
      · rw [hfile]
      · cases hbroken.symm.trans hsource

end Session

end LoxLexer
