import LoxLexer.Proofs.Effects
import LoxLexer.Proofs.LineByLine
import LoxLexer.Proofs.Acceptance
import LoxLexer.Proofs.Layout

/-!
# Reading a listing back

A listing writes strings as they are, so a string can hold line feeds and whole lines that look like
tokens. A listing of scanned tokens can nevertheless be read back from left to right. The name of
the kind ends at the first space. What follows is the text of a token before a space, and every
token stops there, so the longest piece at this place is the token. The text fixes the literal, and
a text is closed by the token for the end of the input.

## Key results

- `List.linesBy_flatten`: lines that are put together are told apart again
- `meaning_eq_of_toList_display_append_eq`: the first token of a listing can be read back
- `map_meaning_eq_of_listing_eq`: a listing can be read back
- `Session.bytes_out_afterRuns_eq_iff`: what the listing of a session tells about its sources
-/

namespace List

variable {α : Type _} {p : α → Prop} [DecidablePred p]

/-- Lines that are put together are told apart again by the elements that end them. -/
theorem linesBy_flatten {lines : List (List α)}
    (h : ∀ line ∈ lines, ∃ front a, line = front ++ [a] ∧ p a ∧ ∀ b ∈ front, ¬ p b) :
    linesBy p lines.flatten = lines := by
  -- Line by line: what ends the first line is the first such element.
  induction lines with
  | nil => rfl
  | cons line lines ih =>
    obtain ⟨⟨front, a, rfl, ha, hfront⟩, hlines⟩ := forall_mem_cons.1 h
    rw [flatten_cons, append_assoc, singleton_append, linesBy_append_cons hfront ha, ih hlines]

end List

namespace LoxLexer

open Session (listing)

/-! ## Scanned tokens -/

/-- A token that scanning can give: the token of a piece, or the token for the end of the input. -/
inductive Token.Scanned : Token → Prop where
  | piece {p : Piece} {kind : Kind} (hp : p.WellFormed) (hkind : p.kind? = some kind) (line : Nat) :
      Scanned ⟨kind, String.ofList p.text, p.literal, line⟩
  | eof (line : Nat) : Scanned (Token.eof line)

/-- The tokens of a scan are those of pieces, none of which ends the input, and one that does. -/
theorem exists_tokens_of_scan_eq_ok {source : String} {tokens : List Token}
    (h : scan source = .ok tokens) :
    ∃ front last, tokens = front ++ [Token.eof last] ∧ (∀ t ∈ front, t.kind ≠ .eof) ∧
      ∀ t ∈ front, t.Scanned := by
  obtain ⟨-, rfl⟩ := Cut.scan_eq_ok_iff.1 h
  have hwf := Cut.wellFormed_of_mem_pieces 0 source.toList
  refine ⟨_, _, rfl, Grammar.kind_ne_eof_of_forall₂_spells (Cut.forall₂_spells hwf), ?_⟩
  intro t ht
  -- Each token is that of a piece, and all pieces are well-formed.
  obtain ⟨q, hq, htoken⟩ := List.mem_filterMap.1 ht
  obtain ⟨kind, hkind, rfl⟩ := Option.map_eq_some_iff.1 htoken
  exact .piece (hwf q hq) hkind q.line

theorem scanned_of_mem_of_scan_eq_ok {source : String} {tokens : List Token}
    (h : scan source = .ok tokens) : ∀ t ∈ tokens, t.Scanned := by
  obtain ⟨front, last, rfl, -, hfront⟩ := exists_tokens_of_scan_eq_ok h
  exact List.forall_mem_append.2 ⟨hfront, List.forall_mem_singleton.2 (.eof last)⟩

/-- A scanned token before the end has the kind and the literal that the grammar gives its text. -/
theorem Token.Scanned.tokenText {t : Token} (h : t.Scanned) (hkind : t.kind ≠ .eof) :
    Grammar.TokenText t.lexeme.toList t.kind t.literal := by
  cases h with
  | piece hp hk line =>
    rw [String.toList_ofList]
    exact Grammar.tokenText_text hp hk
  | eof line => exact absurd rfl hkind

/-! ## Reading a token back -/

/-- No name of a kind has a blank in it. -/
theorem Kind.not_mem_toList_name (k : Kind) {c : Char} (hc : c.isWhitespace) :
    c ∉ k.name.toList := by
  -- The names are a finite table.
  have hall : ∀ k ∈ Kind.all, k.name.toList.any Char.isWhitespace = false := by
    decide +kernel
  intro hmem
  exact List.any_eq_false.1 (hall k k.mem_all) c hmem hc

/-- A piece that becomes a token stops before a space, so it is the longest there. -/
theorem Piece.first?_text_append_space {p : Piece} {kind : Kind} (hp : p.WellFormed)
    (hkind : p.kind? = some kind) (rest : List Char) :
    first? (p.text ++ ' ' :: rest) = some p :=
  first?_text_append hp (stops_of_isWhitespace hkind rfl)

/-- The text of a scanned token before a space tells what the token means. -/
theorem meaning_eq_of_toList_lexeme_append_eq {t t' : Token} (h : t.Scanned) (h' : t'.Scanned)
    {x y : List Char} (heq : t.lexeme.toList ++ ' ' :: x = t'.lexeme.toList ++ ' ' :: y) :
    t.meaning = t'.meaning ∧ x = y := by
  -- Both texts are cut by the same scanner, which finds the same first piece in them.
  cases h with
  | piece hp hkind line =>
    rw [String.toList_ofList] at heq
    have hfirst := Piece.first?_text_append_space hp hkind x
    cases h' with
    | piece hp' hkind' line' =>
      rw [String.toList_ofList] at heq
      rw [heq, Piece.first?_text_append_space hp' hkind' y] at hfirst
      cases hfirst
      cases hkind.symm.trans hkind'
      exact ⟨rfl, (List.cons.inj (List.append_cancel_left heq)).2⟩
    | eof line' =>
      -- Before the end of the input there is no text, so a blank would be found.
      rw [heq] at hfirst
      cases hfirst
      cases hkind
  | eof line =>
    cases h' with
    | piece hp' hkind' line' =>
      rw [String.toList_ofList] at heq
      have hfirst := Piece.first?_text_append_space hp' hkind' y
      rw [← heq] at hfirst
      cases hfirst
      cases hkind'
    | eof line' => exact ⟨rfl, (List.cons.inj heq).2⟩

/-- What a token means decides how it is displayed. -/
theorem displayLiteral_eq_of_meaning_eq {t t' : Token} (h : t.meaning = t'.meaning) :
    t.displayLiteral = t'.displayLiteral := by
  simp only [Token.meaning, Prod.mk.injEq] at h
  rw [Token.displayLiteral, Token.displayLiteral, h.2.2]

theorem toList_display_append (t : Token) (x : List Char) :
    t.display.toList ++ x = t.kind.name.toList ++ ' ' ::
      (t.lexeme.toList ++ ' ' :: (t.displayLiteral.toList ++ x)) := by
  simp [Token.display]

/-- The first token of a listing can be read back, whatever follows it. -/
theorem meaning_eq_of_toList_display_append_eq {t t' : Token} (h : t.Scanned) (h' : t'.Scanned)
    {x y : List Char} (heq : t.display.toList ++ x = t'.display.toList ++ y) :
    t.meaning = t'.meaning ∧ x = y := by
  rw [toList_display_append, toList_display_append] at heq
  -- The name ends at the first space, the text where its piece ends, and the literal is then known.
  obtain ⟨-, hbehind⟩ := List.append_cons_inj_of_not_mem (t.kind.not_mem_toList_name rfl)
    (t'.kind.not_mem_toList_name rfl) heq
  obtain ⟨hmeaning, hrest⟩ := meaning_eq_of_toList_lexeme_append_eq h h' hbehind
  rw [displayLiteral_eq_of_meaning_eq hmeaning] at hrest
  exact ⟨hmeaning, List.append_cancel_left hrest⟩

/-! ## Reading a listing back -/

theorem toList_listing_cons (t : Token) (tokens : List Token) :
    (listing (t :: tokens)).toList = t.display.toList ++ '\n' :: (listing tokens).toList := by
  simp [listing]

/-- A listing of scanned tokens can be read back. -/
theorem map_meaning_eq_of_listing_eq {tokens tokens' : List Token} (h : ∀ t ∈ tokens, t.Scanned)
    (h' : ∀ t ∈ tokens', t.Scanned) (heq : listing tokens = listing tokens') :
    tokens.map Token.meaning = tokens'.map Token.meaning := by
  replace heq := congrArg String.toList heq
  induction tokens generalizing tokens' with
  | nil =>
    cases tokens' with
    | nil => rfl
    | cons t' tokens' => simp [listing] at heq
  | cons t tokens ih =>
    -- Every line is read back before the next one, until one of the listings is empty.
    cases tokens' with
    | nil => simp [listing] at heq
    | cons t' tokens' =>
      obtain ⟨ht, htokens⟩ := List.forall_mem_cons.1 h
      obtain ⟨ht', htokens'⟩ := List.forall_mem_cons.1 h'
      rw [toList_listing_cons, toList_listing_cons] at heq
      obtain ⟨hmeaning, hrest⟩ := meaning_eq_of_toList_display_append_eq ht ht' heq
      rw [List.map_cons, List.map_cons, hmeaning, ih htokens htokens' (List.cons.inj hrest).2]

/-- Tokens that mean the same are listed alike. -/
theorem listing_eq_of_map_meaning_eq {tokens tokens' : List Token}
    (h : tokens.map Token.meaning = tokens'.map Token.meaning) :
    listing tokens = listing tokens' := by
  let line : Kind × String × Option Literal → String := fun m =>
    (⟨m.1, m.2.1, m.2.2, 0⟩ : Token).display ++ "\n"
  -- The line of a token takes no part in its display.
  have hline : (fun t : Token => t.display ++ "\n") = line ∘ Token.meaning := rfl
  rw [listing, listing, hline, ← List.map_map, ← List.map_map, h]

/-! ## Sources run one after another -/

/-- The tokens of the sources that can be scanned, source by source. -/
def scanned (sources : List String) : List (List Token) :=
  sources.filterMap fun source => (scan source).toOption

theorem exists_scan_eq_ok_of_mem_scanned {sources : List String} {tokens : List Token}
    (h : tokens ∈ scanned sources) : ∃ source, scan source = .ok tokens := by
  obtain ⟨source, -, hscan⟩ := List.mem_filterMap.1 h
  -- Only a scan that succeeds is among them.
  cases hresult : scan source with
  | ok result =>
    rw [hresult] at hscan
    cases hscan
    exact ⟨source, hresult⟩
  | error e =>
    rw [hresult] at hscan
    cases hscan

/-- The end of the input is the last thing that the tokens of a source mean, and only the last. -/
theorem exists_map_meaning_of_mem_scanned {sources : List String} {tokens : List Token}
    (h : tokens ∈ scanned sources) :
    ∃ front a, tokens.map Token.meaning = front ++ [a] ∧ a.1 = .eof ∧ ∀ b ∈ front, b.1 ≠ .eof := by
  obtain ⟨source, hscan⟩ := exists_scan_eq_ok_of_mem_scanned h
  obtain ⟨front, last, rfl, hkind, -⟩ := exists_tokens_of_scan_eq_ok hscan
  exact ⟨front.map Token.meaning, _, List.map_append, rfl, List.forall_mem_map.2 hkind⟩

theorem scanned_of_mem_flatten_scanned {sources : List String} :
    ∀ t ∈ (scanned sources).flatten, t.Scanned := by
  intro t ht
  obtain ⟨tokens, htokens, hmem⟩ := List.mem_flatten.1 ht
  obtain ⟨source, hscan⟩ := exists_scan_eq_ok_of_mem_scanned htokens
  exact scanned_of_mem_of_scan_eq_ok hscan t hmem

namespace Session

/-- A session that has run sources one after another. -/
def afterRuns (s : Session) (sources : List String) : Session :=
  sources.foldl (fun s source => (s.take (run source)).2) s

/-- A session lists the tokens of the sources that can be scanned, one after another. -/
theorem out_afterRuns {s : Session} (h : s.Unlimited) (sources : List String) :
    (s.afterRuns sources).out = s.out.append (listing (scanned sources).flatten) := by
  induction sources generalizing s with
  | nil => simp [afterRuns, scanned, listing]
  | cons source sources ih =>
    have hrun : s.afterRuns (source :: sources) = (s.afterRun source).afterRuns sources := by
      rw [afterRuns, List.foldl_cons, take_run h]
      rfl
    rw [hrun, ih (h.afterRun source)]
    -- A source that cannot be scanned is reported, and adds nothing to the listing.
    cases hscan : scan source with
    | ok tokens =>
      simp [afterRun, listed, scanned, hscan, Except.toOption, Sink.append_append, listing_append]
    | error e => simp [afterRun, listed, scanned, hscan, Except.toOption]

/-- Two sessions that run sources one after another list the same bytes exactly when the tokens of
    those sources that can be scanned are the same, source by source and token by token, in their
    kinds, texts and literals. Nothing but the lines of the tokens is lost. -/
theorem bytes_out_afterRuns_eq_iff (sources sources' : List String) :
    ((fresh none none).afterRuns sources).out.bytes =
        ((fresh none none).afterRuns sources').out.bytes ↔
      (scanned sources).map (·.map Token.meaning) =
        (scanned sources').map (·.map Token.meaning) := by
  have hbytes (sources : List String) : ((fresh none none).afterRuns sources).out.bytes =
      (listing (scanned sources).flatten).toByteArray := by
    rw [out_afterRuns unlimited_fresh]
    simp [fresh, Sink.empty, Sink.append]
  rw [hbytes, hbytes, String.toByteArray_inj]
  constructor
  · intro h
    have hflat := map_meaning_eq_of_listing_eq scanned_of_mem_flatten_scanned
      scanned_of_mem_flatten_scanned h
    rw [List.map_flatten, List.map_flatten] at hflat
    -- The ends of the inputs tell the sources apart.
    have hlines (sources : List String) :
        ((scanned sources).map (·.map Token.meaning)).flatten.linesBy (·.1 = Kind.eof) =
          (scanned sources).map (·.map Token.meaning) :=
      List.linesBy_flatten (List.forall_mem_map.2 fun _ => exists_map_meaning_of_mem_scanned)
    rw [← hlines sources, ← hlines sources', hflat]
  · intro h
    apply listing_eq_of_map_meaning_eq
    rw [List.map_flatten, List.map_flatten, h]

end Session

end LoxLexer
