import Mathlib.Data.List.Chain
import Scaffold.Proofs.Model.Grammar
import Scaffold.Proofs.Text.Spans

/-! Requests for a model that cannot be read, and where the user is pointed to. A request has too
few tokens, and the whole line is at fault, or it has a first token that should describe a field and
does not, and that token is. Flags take part in the line, and so in the place of every token behind
them. Main statement: `parse_refused`. -/

namespace Scaffold

/-! ### The line of the tokens -/

namespace TokenLine

variable {tokens before after : List Text} {token : Text}

/-- What stands in the line in front of the next token, if these are the first ones. -/
def lead (ts : List Text) : Text :=
  ts.flatMap (· ++ [' '])

/-- What stands in the line behind a token, if these are the last ones. -/
def trail (ts : List Text) : Text :=
  ts.flatMap (' ' :: ·)

theorem text_cons (t : Text) (ts : List Text) : text (t :: ts) = t ++ trail ts := by
  induction ts generalizing t with
  | nil => simp [text, trail, Text.join]
  | cons t' ts ih =>
    rw [text, Text.join_cons_cons, ← text, ih, trail, trail, List.flatMap_cons]
    simp

theorem text_append_cons (before : List Text) (token : Text) (after : List Text) :
    text (before ++ token :: after) = lead before ++ token ++ trail after := by
  induction before with
  | nil => exact text_cons token after
  | cons t before ih =>
    obtain ⟨t', ts, hts⟩ := List.exists_cons_of_ne_nil
      (List.append_ne_nil_of_right_ne_nil before (List.cons_ne_nil token after))
    rw [hts] at ih
    rw [List.cons_append, hts, text, Text.join_cons_cons, ← text, ih]
    simp [lead]

theorem spansFrom_append_cons (n : Nat) (before : List Text) (token : Text) (after : List Text) :
    ∃ rest, spansFrom n (before ++ token :: after) =
      spansFrom n before ++ ⟨n + (lead before).byteSize, token.byteSize⟩ :: rest := by
  induction before generalizing n with
  | nil => exact ⟨_, rfl⟩
  | cons t before ih =>
    obtain ⟨rest, hrest⟩ := ih (n + t.byteSize + 1)
    refine ⟨rest, ?_⟩
    have hsize : (lead (t :: before)).byteSize = t.byteSize + 1 + (lead before).byteSize := by
      rw [lead, List.flatMap_cons, Text.byteSize_append, Text.byteSize_append]
      rfl
    rw [List.cons_append, spansFrom, spansFrom, hrest, hsize, List.cons_append]
    simp only [Nat.add_assoc]

theorem length_spansFrom (n : Nat) (ts : List Text) : (spansFrom n ts).length = ts.length := by
  induction ts generalizing n with
  | nil => rfl
  | cons t ts ih => rw [spansFrom, List.length_cons, ih, List.length_cons]

/-- The span of a token is counted from everything in front of it. -/
theorem span_append_cons (before : List Text) (token : Text) (after : List Text) :
    span (before ++ token :: after) before.length = ⟨(lead before).byteSize, token.byteSize⟩ := by
  obtain ⟨rest, hrest⟩ := spansFrom_append_cons 0 before token after
  have hlength : before.length = (spansFrom 0 before).length := (length_spansFrom 0 before).symm
  rw [span, spans, hrest, hlength, List.getElem?_append_right (Nat.le_refl _), Nat.sub_self]
  simp

theorem covers_span (h : tokens = before ++ token :: after) :
    (span tokens before.length).Covers (text tokens) (lead before) token (trail after) := by
  subst h
  exact Span.covers_iff.2 ⟨text_append_cons _ _ _, span_append_cons _ _ _⟩

theorem covers_wholeSpan (tokens : List Text) :
    (wholeSpan tokens).Covers (text tokens) [] (text tokens) [] :=
  Span.covers_iff.2 ⟨by simp, rfl⟩

/-- One byte, that of a blank, stands between a token and the next one. -/
theorem isChain_spansFrom (n : Nat) (ts : List Text) :
    (spansFrom n ts).IsChain fun a b => b.offset = a.offset + a.length + 1 := by
  induction ts generalizing n with
  | nil => exact .nil
  | cons t ts ih =>
    refine List.isChain_cons.2 ⟨fun b hb => ?_, ih _⟩
    cases ts with
    | nil => cases hb
    | cons t' ts => rw [← Option.some.inj hb]

end TokenLine

/-! ### Tokens that describe no field -/

/-- A text has one mark exactly if the mark parts it in two. -/
theorem Text.count_eq_one_iff {c : Char} {t : Text} :
    t.count c = 1 ↔ ∃ a b, t = a ++ c :: b ∧ c ∉ a ∧ c ∉ b := by
  constructor
  · intro h
    have hmem : c ∈ t := List.count_pos_iff.1 (by omega)
    obtain ⟨a, b, rfl, ha⟩ := List.eq_append_cons_of_mem hmem
    refine ⟨a, b, rfl, ha, fun hb => ?_⟩
    have hpos := List.count_pos_iff.2 hb
    rw [List.count_append, List.count_cons_self] at h
    omega
  · rintro ⟨a, b, rfl, ha, hb⟩
    rw [List.count_append, List.count_cons_self, List.count_eq_zero.2 ha, List.count_eq_zero.2 hb]

namespace Field

variable {token : Text}

theorem ofToken_eq_malformed_iff {t : Text} :
    ofToken token = .error (.malformed t) ↔ t = token ∧ token.count ':' ≠ 1 := by
  have hpair : token.count ':' = 1 ↔ ∃ name type, Text.splitOn ':' token = [name, type] := by
    simp only [Text.count_eq_one_iff, Text.splitOn_eq_pair_iff]
  rw [Ne, hpair, ofToken]
  split
  · next name type hs =>
    rcases splitMark type with ⟨keyword, optional⟩
    dsimp only
    split <;> simp [hs]
  · next hno =>
    rw [Except.error.injEq, FieldError.malformed.injEq]
    refine ⟨fun h => ⟨h.symm, ?_⟩, fun h => h.1.symm⟩
    rintro ⟨name, type, hs⟩
    exact hno name type hs

theorem splitMark_fst_eq_nil_iff {type : Text} :
    (splitMark type).1 = [] ↔ type = [] ∨ type = ['!'] := by
  rcases hm : splitMark type with ⟨text, optional⟩
  rcases splitMark_eq_iff.1 hm with ⟨-, rfl⟩ | ⟨-, hlast, rfl⟩
  · simp
  · have hmark : type ≠ ['!'] := by
      rintro rfl
      exact hlast rfl
    simp [hmark]

theorem ofToken_eq_missingType_iff {name : Text} : ofToken token = .error (.missingType name) ↔
    ∃ type, token = name ++ ':' :: type ∧ ':' ∉ name ∧ (type = [] ∨ type = ['!']) := by
  have hsplit : (∃ type, token = name ++ ':' :: type ∧ ':' ∉ name ∧ (type = [] ∨ type = ['!'])) ↔
      ∃ type, Text.splitOn ':' token = [name, type] ∧ (splitMark type).1 = [] := by
    refine exists_congr fun type => ?_
    rw [Text.splitOn_eq_pair_iff, splitMark_fst_eq_nil_iff]
    constructor
    · rintro ⟨ht, hn, rfl | rfl⟩
      · exact ⟨⟨ht, hn, by simp⟩, .inl rfl⟩
      · exact ⟨⟨ht, hn, by simp⟩, .inr rfl⟩
    · rintro ⟨⟨ht, hn, -⟩, h⟩
      exact ⟨ht, hn, h⟩
  rw [hsplit, ofToken]
  split
  · next name' type hs =>
    rcases hm : splitMark type with ⟨keyword, optional⟩
    by_cases hk : keyword = [] <;> simp [hs, hm, hk]
  · next hno =>
    constructor
    · intro h
      cases h
    · rintro ⟨type, hs, -⟩
      exact absurd hs (hno name type)

end Field

/-! ### Requests that cannot be read -/

namespace Model

variable {naming : Naming} {tokens before : List Text} {token : Text} {e : ModelError}

/-- Steps that may fail end with the error of the first one that fails. -/
theorem mapM_eq_error_iff {ε α β : Type} {f : α → Except ε β} {xs : List α} {e : ε} :
    xs.mapM f = .error e ↔ ∃ front x back, xs = front ++ x :: back ∧
      (∀ y ∈ front, ∃ b, f y = .ok b) ∧ f x = .error e := by
  induction xs with
  | nil => simp [List.mapM_nil, pure, Except.pure]
  | cons x xs ih =>
    have hcons : (x :: xs).mapM f = .error e ↔
        f x = .error e ∨ (∃ b, f x = .ok b) ∧ xs.mapM f = .error e := by
      rw [List.mapM_cons]
      rcases f x with e' | b <;> rcases xs.mapM f with e'' | bs <;>
        simp [bind, Except.bind, pure, Except.pure]
    rw [hcons, ih]
    constructor
    · rintro (hx | ⟨hx, front, y, back, rfl, hfront, hy⟩)
      · exact ⟨[], x, xs, rfl, by simp, hx⟩
      · exact ⟨x :: front, y, back, rfl, List.forall_mem_cons.2 ⟨hx, hfront⟩, hy⟩
    · rintro ⟨_ | ⟨x', front⟩, y, back, hxs, hfront, hy⟩
      · obtain ⟨rfl, -⟩ := List.cons.inj hxs
        exact .inl hy
      · obtain ⟨rfl, rfl⟩ := List.cons.inj hxs
        obtain ⟨hx, hfront⟩ := List.forall_mem_cons.1 hfront
        exact .inr ⟨hx, front, y, back, rfl, hfront, hy⟩

theorem positional_append_cons (h : ¬Flag.IsFlag token) (before after : List Text) :
    ∃ rest, positional (before ++ token :: after) =
      positional before ++ (token, before.length) :: rest := by
  have hplain : (Flag.ofToken? token).isNone = true := by
    rw [Flag.isFlag_iff] at h
    simpa using h
  simp only [positional, List.zipIdx_append, List.filter_append, List.zipIdx_cons, Nat.zero_add]
  rw [List.filter_cons_of_pos (by exact hplain)]
  exact ⟨_, rfl⟩

/-- The place of a plain token tells what stands before it. -/
theorem of_positional_eq {ps qs : List (Text × Nat)} {i : Nat}
    (h : positional tokens = ps ++ (token, i) :: qs) : ∃ before after,
      tokens = before ++ token :: after ∧ i = before.length ∧ positional before = ps ∧
        ¬Flag.IsFlag token := by
  unfold positional at h
  obtain ⟨l₁, l₂, hl, rfl, h₂⟩ := List.filter_eq_append_iff.1 h
  obtain ⟨skip, l₃, rfl, hskip, hplain, -⟩ := List.filter_eq_cons_iff.1 h₂
  rw [← List.append_assoc] at hl
  obtain ⟨before, rest, rfl, hbefore, hrest⟩ := List.zipIdx_eq_append_iff.1 hl
  obtain ⟨t, after, rfl⟩ : ∃ t after, rest = t :: after := by
    cases rest with
    | nil => cases hrest
    | cons t after => exact ⟨t, after, rfl⟩
  obtain ⟨⟨rfl, rfl⟩, -⟩ := List.cons.inj hrest
  refine ⟨before, after, rfl, by simp, ?_, ?_⟩
  · rw [positional, ← hbefore, List.filter_append, List.filter_eq_nil_iff.2 hskip, List.append_nil]
  · rw [Flag.isFlag_iff]
    simpa using hplain

theorem parseField_eq_error_iff {i : Nat} : parseField (token, i) = .error e ↔
    (token.count ':' ≠ 1 ∧ e = .malformedField token i) ∨
    ∃ name type, (token = name ++ ':' :: type ∧ ':' ∉ name ∧ (type = [] ∨ type = ['!'])) ∧
      e = .unsupportedType name i := by
  have hcases : parseField (token, i) = .error e ↔
      (Field.ofToken token = .error (.malformed token) ∧ e = .malformedField token i) ∨
      ∃ name, Field.ofToken token = .error (.missingType name) ∧ e = .unsupportedType name i := by
    rw [parseField]
    rcases hf : Field.ofToken token with (t | name) | f
    · obtain ⟨rfl, -⟩ := Field.ofToken_eq_malformed_iff.1 hf
      simp [eq_comm]
    · simp [eq_comm]
    · simp
  simp only [hcases, Field.ofToken_eq_malformed_iff, Field.ofToken_eq_missingType_iff, true_and,
    exists_and_right]

/-- A token does not describe a field where one is expected. Before it stand the name and fields
that can be read, besides flags, so it is the first such token. -/
structure Offends (before : List Text) (token : Text) : Prop where
  plain : ¬Flag.IsFlag token
  invalid : ¬IsField token
  first : ∃ name fields, Model.plain before = name :: fields ∧ ∀ t ∈ fields, IsField t

theorem isField_iff {t : Text × Nat} : (∃ f, parseField t = .ok f) ↔ IsField t.1 := by
  simp only [parseField_eq_ok_iff, Field.exists_describedBy_iff]

theorem length_positional (tokens : List Text) :
    (positional tokens).length = (plain tokens).length := by
  rw [← map_fst_positional, List.length_map]

/-- Where a token offends, there is a name before it, and it is read as a field. -/
theorem Offends.exists_positional (h : Offends before token) (after : List Text) :
    ∃ raw front back, positional (before ++ token :: after) =
      raw :: (front ++ (token, before.length) :: back) ∧ ∀ t ∈ front, IsField t.1 := by
  obtain ⟨back, hback⟩ := positional_append_cons h.plain before after
  obtain ⟨name, fields, hb, hfields⟩ := h.first
  rw [← map_fst_positional, List.map_eq_cons_iff] at hb
  obtain ⟨raw, front, hb, rfl, rfl⟩ := hb
  rw [hb] at hback
  exact ⟨raw, front, back, hback, List.forall_mem_map.1 hfields⟩

/-- The first pair behind the name that has no field is that of a token that offends. -/
theorem exists_offends {raw : Text × Nat} {front back : List (Text × Nat)} {i : Nat}
    (h : positional tokens = raw :: (front ++ (token, i) :: back))
    (hfront : ∀ t ∈ front, IsField t.1) (hinvalid : ¬IsField token) :
    ∃ before after, tokens = before ++ token :: after ∧ i = before.length ∧
      Offends before token := by
  rw [← List.cons_append] at h
  obtain ⟨before, after, htokens, rfl, hb, hflag⟩ := of_positional_eq h
  refine ⟨before, after, htokens, rfl, hflag, hinvalid, raw.1, front.map Prod.fst, ?_,
    List.forall_mem_map.2 hfront⟩
  rw [← map_fst_positional, hb, List.map_cons]

theorem parse_eq_error_iff : parse naming tokens = .error e ↔
    ((plain tokens).length < 2 ∧ e = .insufficient (plain tokens).length) ∨
    ∃ before token after, tokens = before ++ token :: after ∧ Offends before token ∧
      parseField (token, before.length) = .error e := by
  rw [← length_positional, parse]
  split
  · next raw i t ts hp =>
    have hread : ∀ k : List Field → Model,
        ((t :: ts).mapM parseField >>= fun fs => pure (k fs)) = .error e ↔
          (t :: ts).mapM parseField = .error e := by
      intro k
      rcases (t :: ts).mapM parseField with e' | fs <;> simp [bind, Except.bind, pure, Except.pure]
    rw [hread, mapM_eq_error_iff]
    -- The first pair that fails carries the index of its token among all tokens, flags included.
    constructor
    · rintro ⟨front, ⟨token, j⟩, back, hts, hfront, hx⟩
      have hinvalid : ¬IsField token := fun hf => by
        obtain ⟨f, hok⟩ := (@isField_iff (token, j)).2 hf
        rw [hx] at hok
        cases hok
      rw [hts] at hp
      obtain ⟨before, after, htokens, rfl, hoff⟩ :=
        exists_offends hp (fun y hy => isField_iff.1 (hfront y hy)) hinvalid
      exact .inr ⟨before, token, after, htokens, hoff, hx⟩
    · rintro (⟨hlt, -⟩ | ⟨before, token, after, rfl, hoff, hx⟩)
      · rw [hp, List.length_cons, List.length_cons] at hlt
        omega
      · obtain ⟨raw', front, back, hsplit, hfront⟩ := hoff.exists_positional after
        rw [hp] at hsplit
        obtain ⟨-, hts⟩ := List.cons.inj hsplit
        exact ⟨front, _, back, hts, fun y hy => isField_iff.2 (hfront y hy), hx⟩
  · next hno =>
    constructor
    · -- fewer than two plain tokens, so there is nothing that could offend
      rintro ⟨rfl⟩
      refine .inl ⟨?_, rfl⟩
      rcases hp : positional tokens with _ | ⟨⟨raw, i⟩, _ | ⟨t, ts⟩⟩
      · simp
      · simp
      · exact absurd hp (hno raw i t ts)
    · rintro (⟨-, rfl⟩ | ⟨before, token, after, rfl, hoff, -⟩)
      · rfl
      · obtain ⟨⟨raw, i⟩, front, back, hsplit, -⟩ := hoff.exists_positional after
        rcases front with _ | ⟨t, front⟩
        · exact absurd hsplit (hno raw i _ back)
        · exact absurd hsplit (hno raw i t _)

/-- Why a request cannot be read, and the stretch of its line that is at fault: the whole line if
there are too few tokens, or else the token that offends. That has no colon or several ones, or no
type behind its only colon. -/
inductive Refused (tokens : List Text) : ModelError → Span → Prop
  | insufficient {span : Span} (few : (plain tokens).length < 2)
      (hspan : span.Covers (TokenLine.text tokens) [] (TokenLine.text tokens) []) :
      Refused tokens (.insufficient (plain tokens).length) span
  | malformed {before after : List Text} {token : Text} {span : Span}
      (htokens : tokens = before ++ token :: after) (hoff : Offends before token)
      (hcolons : token.count ':' ≠ 1)
      (hspan : span.Covers (TokenLine.text tokens) (TokenLine.lead before) token
        (TokenLine.trail after)) :
      Refused tokens (.malformedField token before.length) span
  | untyped {before after : List Text} {token name type : Text} {span : Span}
      (htokens : tokens = before ++ token :: after) (hoff : Offends before token)
      (htoken : token = name ++ ':' :: type) (hname : ':' ∉ name) (htype : type = [] ∨ type = ['!'])
      (hspan : span.Covers (TokenLine.text tokens) (TokenLine.lead before) token
        (TokenLine.trail after)) :
      Refused tokens (.unsupportedType name before.length) span

/-- A request is refused for just these reasons, with a label on what is at fault. In the line of
the tokens, the span of each token holds that token, in order and with one byte between two of
them. -/
theorem parse_refused (naming : Naming) (tokens : List Text) :
    (∀ e, parse naming tokens = .error e ↔
      ∃ label, (e.diagnostic tokens).labels = [label] ∧ Refused tokens e label.span) ∧
    (∀ before token after, tokens = before ++ token :: after →
      (TokenLine.span tokens before.length).Covers (TokenLine.text tokens) (TokenLine.lead before)
        token (TokenLine.trail after)) ∧
    (TokenLine.spans tokens).length = tokens.length ∧
    (TokenLine.spans tokens).IsChain fun a b => b.offset = a.offset + a.length + 1 := by
  refine ⟨fun e => ?_, fun before token after => TokenLine.covers_span,
    TokenLine.length_spansFrom 0 tokens, TokenLine.isChain_spansFrom 0 tokens⟩
  rw [parse_eq_error_iff]
  constructor
  · rintro (⟨few, rfl⟩ | ⟨before, token, after, htokens, hoff, hx⟩)
    · exact ⟨_, rfl, .insufficient few (TokenLine.covers_wholeSpan tokens)⟩
    · have hspan := TokenLine.covers_span htokens
      rcases parseField_eq_error_iff.1 hx with ⟨hc, rfl⟩ | ⟨name, type, ⟨ht, hn, htype⟩, rfl⟩
      · exact ⟨_, rfl, .malformed htokens hoff hc hspan⟩
      · exact ⟨_, rfl, .untyped htokens hoff ht hn htype hspan⟩
  · rintro ⟨label, -, h⟩
    cases h with
    | insufficient few => exact .inl ⟨few, rfl⟩
    | malformed htokens hoff hc =>
      exact .inr ⟨_, _, _, htokens, hoff, parseField_eq_error_iff.2 (.inl ⟨hc, rfl⟩)⟩
    | untyped htokens hoff ht hn htype =>
      exact .inr ⟨_, _, _, htokens, hoff,
        parseField_eq_error_iff.2 (.inr ⟨_, _, ⟨ht, hn, htype⟩, rfl⟩)⟩

end Model
end Scaffold
