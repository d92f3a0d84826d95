import Mathlib.Data.List.Induction
import Mathlib.Data.List.Forall2
import Scaffold.Model.Parse
import Scaffold.Proofs.Text.Split

/-! The grammar of a request for a model. A token that sets a flag may stand anywhere; of the other
tokens the first one is the name of the model and each of the rest describes a field. Main
statement: `parse_grammar`, that exactly these requests are read, and what is read from them. -/

namespace Scaffold

/-! ### Flags -/

namespace Flag

/-- The key of a flag, in lower case. -/
def key : Flag → Text
  | .node => "node"
  | .viewData => "viewdata"

/-- The word for a value, in lower case. -/
def word : Bool → Text
  | true => "true"
  | false => "false"

/-- A token that sets a flag: two dashes, the key, an equals sign and the value. The key and the
value may be in any case. -/
def SetBy (flag : Flag) (token : Text) (value : Bool) : Prop :=
  ∃ k v : Text, token = "--" ++ k ++ '=' :: v ∧ '=' ∉ k ∧ Text.asciiLower k = flag.key ∧
    Text.asciiLower v = word value

/-- The flag with a key. -/
def ofKey? (k : Text) : Option Flag :=
  if k = key .node then some .node else if k = key .viewData then some .viewData else none

/-- The value with a word. -/
def ofWord? (v : Text) : Option Bool :=
  if v = word true then some true else if v = word false then some false else none

theorem ofKey?_eq_some_iff {k : Text} {flag : Flag} : ofKey? k = some flag ↔ k = flag.key := by
  have hne : key .node ≠ key .viewData := by decide
  unfold ofKey?
  split_ifs with hn hv
  · cases flag <;> simp [hn, hne]
  · cases flag <;> simp [hv, hne.symm]
  · cases flag <;> simp [hn, hv]

theorem ofWord?_eq_some_iff {v : Text} {value : Bool} :
    ofWord? v = some value ↔ v = word value := by
  have hne : word true ≠ word false := by decide
  unfold ofWord?
  split_ifs with ht hf
  · cases value <;> simp [ht, hne]
  · cases value <;> simp [hf, hne.symm]
  · cases value <;> simp [ht, hf]

/-- Reading a flag, one part after the other. -/
theorem ofToken?_eq (token : Text) :
    ofToken? token = (Text.stripPrefix? "--" token).bind fun rest =>
      (Text.splitOnce? '=' rest).bind fun (k, v) => (ofKey? (Text.asciiLower k)).bind fun flag =>
        (ofWord? (Text.asciiLower v)).map fun value => (flag, value) := by
  refine congrArg (Option.bind _) (funext fun rest => congrArg (Option.bind _) (funext ?_))
  rintro ⟨k, v⟩
  generalize Text.asciiLower k = k
  generalize Text.asciiLower v = v
  unfold ofKey? ofWord? key word
  dsimp only
  split_ifs <;> rfl

theorem ofToken?_eq_some_iff {token : Text} {flag : Flag} {value : Bool} :
    ofToken? token = some (flag, value) ↔ flag.SetBy token value := by
  simp only [ofToken?_eq, SetBy, Option.bind_eq_some_iff, Option.map_eq_some_iff, Prod.exists,
    Prod.mk.injEq, Text.stripPrefix?, List.isPrefixOf?_eq_some_iff_append_eq,
    Text.splitOnce?_eq_some_iff, ofKey?_eq_some_iff, ofWord?_eq_some_iff]
  constructor
  · rintro ⟨_, rfl, k, v, ⟨rfl, hk⟩, _, hf, _, hv, rfl, rfl⟩
    exact ⟨k, v, by simp, hk, hf, hv⟩
  · rintro ⟨k, v, rfl, hk, hf, hv⟩
    exact ⟨_, (List.append_assoc _ _ _).symm, k, v, ⟨rfl, hk⟩, flag, hf, value, hv, rfl, rfl⟩

/-- A token that sets some flag. -/
def IsFlag (token : Text) : Prop :=
  ∃ (flag : Flag) (value : Bool), flag.SetBy token value

theorem isFlag_iff {token : Text} : IsFlag token ↔ (ofToken? token).isSome = true := by
  simp only [IsFlag, Option.isSome_iff_exists, Prod.exists, ofToken?_eq_some_iff]

instance (token : Text) : Decidable (IsFlag token) :=
  decidable_of_iff _ isFlag_iff.symm

end Flag

/-- The value of a flag. -/
def Conformances.get (c : Conformances) : Flag → Bool
  | .node => c.node
  | .viewData => c.viewData

theorem Conformances.get_set (c : Conformances) (flag flag' : Flag) (value : Bool) :
    (Flag.set c (flag, value)).get flag' = if flag' = flag then value else c.get flag' := by
  cases flag <;> cases flag' <;> rfl

/-- The value that tokens give to a flag: that of the last token that sets it, or else false. -/
def LastValue (flag : Flag) (tokens : List Text) (value : Bool) : Prop :=
  (∃ before token after, tokens = before ++ token :: after ∧ flag.SetBy token value ∧
    ∀ t ∈ after, ∀ b, ¬flag.SetBy t b) ∨
  (value = false ∧ ∀ t ∈ tokens, ∀ b, ¬flag.SetBy t b)

theorem lastValue_concat {flag : Flag} {tokens : List Text} {token : Text} {value : Bool} :
    LastValue flag (tokens ++ [token]) value ↔
      flag.SetBy token value ∨ ((∀ b, ¬flag.SetBy token b) ∧ LastValue flag tokens value) := by
  constructor
  · rintro (⟨before, t, after, h, hs, ha⟩ | ⟨hv, hn⟩)
    · rcases List.eq_nil_or_concat after with rfl | ⟨after, u, rfl⟩
      · obtain ⟨-, ht⟩ := List.append_inj' h rfl
        cases ht
        exact .inl hs
      · rw [List.concat_eq_append, ← List.cons_append, ← List.append_assoc] at h
        obtain ⟨rfl, ht⟩ := List.append_inj' h rfl
        cases ht
        exact .inr ⟨ha _ (by simp),
          .inl ⟨before, t, after, rfl, hs, fun t ht => ha t (by simp [ht])⟩⟩
    · exact .inr ⟨hn _ (by simp), .inr ⟨hv, fun t ht => hn t (by simp [ht])⟩⟩
  · rintro (hs | ⟨hn, ⟨before, t, after, rfl, hs, ha⟩ | ⟨hv, hn'⟩⟩)
    · exact .inl ⟨tokens, token, [], rfl, hs, by simp⟩
    · refine .inl ⟨before, t, after ++ [token], by simp, hs, fun u hu => ?_⟩
      rcases List.mem_append.1 hu with hu | hu
      · exact ha u hu
      · obtain rfl := List.mem_singleton.1 hu
        exact hn
    · refine .inr ⟨hv, fun u hu => ?_⟩
      rcases List.mem_append.1 hu with hu | hu
      · exact hn' u hu
      · obtain rfl := List.mem_singleton.1 hu
        exact hn

/-- The value that is read for a flag is the last one. The induction goes from the last token back,
as later flags replace earlier ones. -/
theorem lastValue_iff {flag : Flag} {tokens : List Text} {value : Bool} :
    LastValue flag tokens value ↔ (Model.flagged tokens).get flag = value := by
  induction tokens using List.reverseRecOn with
  | nil =>
    have hget : (Model.flagged []).get flag = false := by cases flag <;> rfl
    rw [hget]
    simp [LastValue, eq_comm]
  | append_singleton tokens token ih =>
    have hstep : Model.flagged (tokens ++ [token]) =
        ((Flag.ofToken? token).toList).foldl Flag.set (Model.flagged tokens) := by
      cases ht : Flag.ofToken? token <;> simp [Model.flagged, List.filterMap_append, ht]
    rw [lastValue_concat, ih, hstep]
    simp only [← Flag.ofToken?_eq_some_iff]
    rcases Flag.ofToken? token with _ | ⟨flag', value'⟩
    · simp
    · simp only [Option.toList_some, List.foldl_cons, List.foldl_nil, Conformances.get_set,
        Option.some.injEq, Prod.mk.injEq]
      by_cases hf : flag = flag'
      · subst hf
        simp
      · simp [hf, Ne.symm hf]

theorem flagged_eq_iff {tokens : List Text} {c : Conformances} :
    Model.flagged tokens = c ↔ ∀ flag, LastValue flag tokens (c.get flag) := by
  simp only [lastValue_iff]
  constructor
  · rintro rfl flag
    rfl
  · intro h
    rw [Conformances.mk.injEq]
    exact ⟨h .node, h .viewData⟩

/-! ### Fields -/

/-- How the text of a type is understood: a scalar by exactly its keyword, and any other text as a
relation. -/
inductive FieldType.Named : Text → FieldType → Prop
  | scalar (s : Scalar) : Named s.keyword (.scalar s)
  | relation {text : Text} (other : ∀ s : Scalar, text ≠ s.keyword) : Named text (.relation text)

/-- How a field is described: its name, a colon, and the text of its type, with one mark behind it
if the field is optional. -/
def Field.DescribedBy (f : Field) (token : Text) : Prop :=
  ∃ type, token = f.name ++ ':' :: type ∧ ':' ∉ f.name ∧ ':' ∉ type ∧
    ((f.isOptional = true ∧ ∃ text, type = text ++ ['!'] ∧ text ≠ [] ∧ f.type.Named text) ∨
      (f.isOptional = false ∧ type.getLast? ≠ some '!' ∧ type ≠ [] ∧ f.type.Named type))

/-- A token with one colon and a type behind it that is more than a mark. -/
def IsField (token : Text) : Prop :=
  ∃ name type, token = name ++ ':' :: type ∧ ':' ∉ name ∧ ':' ∉ type ∧ type ≠ [] ∧ type ≠ ['!']

theorem Scalar.ofKeyword?_eq_some_iff {text : Text} {s : Scalar} :
    Scalar.ofKeyword? text = some s ↔ text = s.keyword := by
  constructor
  · intro h
    unfold ofKeyword? at h
    have hs := List.find?_some h
    exact (of_decide_eq_true hs).symm
  · rintro rfl
    cases s <;> decide

theorem FieldType.named_iff {text : Text} {type : FieldType} :
    type.Named text ↔ FieldType.ofKeyword text = type := by
  constructor
  · rintro (s | other)
    · rw [ofKeyword, Scalar.ofKeyword?_eq_some_iff.2 rfl]
    · have hnone : Scalar.ofKeyword? text = none := Option.eq_none_iff_forall_ne_some.2 fun s hs =>
        other s (Scalar.ofKeyword?_eq_some_iff.1 hs)
      rw [ofKeyword, hnone]
  · rintro rfl
    unfold ofKeyword
    split
    · next s hs =>
      obtain rfl := Scalar.ofKeyword?_eq_some_iff.1 hs
      exact .scalar s
    · next hnone =>
      refine .relation fun s hs => ?_
      rw [Scalar.ofKeyword?_eq_some_iff.2 hs] at hnone
      cases hnone

namespace Field

theorem splitMark_eq_iff {type text : Text} {optional : Bool} :
    splitMark type = (text, optional) ↔
      (optional = true ∧ type = text ++ ['!']) ∨
        (optional = false ∧ type.getLast? ≠ some '!' ∧ type = text) := by
  unfold splitMark
  split
  · next h =>
    obtain ⟨type, rfl⟩ := List.getLast?_eq_some_iff.1 h
    cases optional <;> simp
  · next h =>
    have hne : type ≠ text ++ ['!'] := by
      rintro rfl
      simp at h
    cases optional <;> simp [h, hne]

theorem describedBy_iff {token : Text} {f : Field} :
    f.DescribedBy token ↔ ∃ type text, Text.splitOn ':' token = [f.name, type] ∧
      splitMark type = (text, f.isOptional) ∧ text ≠ [] ∧ FieldType.ofKeyword text = f.type := by
  simp only [DescribedBy, Text.splitOn_eq_pair_iff, splitMark_eq_iff, ← FieldType.named_iff]
  constructor
  · rintro ⟨type, ht, hn, hc, ⟨ho, text, rfl, hne, h⟩ | ⟨ho, hl, hne, h⟩⟩
    · exact ⟨_, text, ⟨ht, hn, hc⟩, .inl ⟨ho, rfl⟩, hne, h⟩
    · exact ⟨type, type, ⟨ht, hn, hc⟩, .inr ⟨ho, hl, rfl⟩, hne, h⟩
  · rintro ⟨type, text, ⟨ht, hn, hc⟩, ⟨ho, rfl⟩ | ⟨ho, hl, rfl⟩, hne, h⟩
    · exact ⟨_, ht, hn, hc, .inl ⟨ho, text, rfl, hne, h⟩⟩
    · exact ⟨type, ht, hn, hc, .inr ⟨ho, hl, hne, h⟩⟩

theorem ofToken_eq_ok_iff {token : Text} {f : Field} :
    ofToken token = .ok f ↔ f.DescribedBy token := by
  rw [describedBy_iff]
  constructor
  · intro h
    unfold ofToken at h
    split at h
    · next name type hs =>
      rcases hm : splitMark type with ⟨text, optional⟩
      rw [hm] at h
      dsimp only at h
      split_ifs at h with hne
      cases h
      exact ⟨type, text, hs, hm, hne, rfl⟩
    · cases h
  · rintro ⟨type, text, hs, hm, hne, ht⟩
    simp only [ofToken, hs, hm, if_neg hne, ht]

theorem exists_describedBy_iff {token : Text} :
    (∃ f : Field, f.DescribedBy token) ↔ IsField token := by
  constructor
  · rintro ⟨f, type, ht, hn, hc, hcases⟩
    refine ⟨f.name, type, ht, hn, hc, ?_⟩
    rcases hcases with ⟨-, text, rfl, hne, -⟩ | ⟨-, hl, hne, -⟩
    · simpa using hne
    · exact ⟨hne, fun h => hl (by simp [h])⟩
  · rintro ⟨name, type, ht, hn, hc, hne, hmark⟩
    rcases hm : splitMark type with ⟨text, optional⟩
    refine ⟨⟨name, FieldType.ofKeyword text, optional⟩, describedBy_iff.2
      ⟨type, text, Text.splitOn_eq_pair_iff.2 ⟨ht, hn, hc⟩, hm, ?_, rfl⟩⟩
    rcases splitMark_eq_iff.1 hm with ⟨-, rfl⟩ | ⟨-, -, rfl⟩
    · rintro rfl
      exact hmark rfl
    · exact hne

end Field

/-! ### Requests -/

namespace Model

/-- The tokens that set no flag, in order. -/
def plain (tokens : List Text) : List Text :=
  tokens.filter fun t => ¬Flag.IsFlag t

theorem map_fst_positional (tokens : List Text) :
    (positional tokens).map Prod.fst = plain tokens := by
  have hrule : (fun p : Text × Nat => (Flag.ofToken? p.1).isNone) =
      (fun t => decide (¬Flag.IsFlag t)) ∘ Prod.fst := by
    funext p
    cases hf : Flag.ofToken? p.1 <;> simp [Flag.isFlag_iff, hf]
  show (tokens.zipIdx.filter fun p => (Flag.ofToken? p.1).isNone).map Prod.fst = _
  rw [hrule, ← List.filter_map, List.zipIdx_map_fst, plain]

/-- Steps that may fail succeed one after the other if each of them succeeds. -/
theorem mapM_eq_ok_iff {ε α β : Type} {f : α → Except ε β} {xs : List α} {ys : List β} :
    xs.mapM f = .ok ys ↔ List.Forall₂ (fun x y => f x = .ok y) xs ys := by
  induction xs generalizing ys with
  | nil => simp [List.mapM_nil, pure, Except.pure, eq_comm]
  | cons x xs ih =>
    rw [List.mapM_cons, List.forall₂_cons_left_iff]
    rcases hx : f x with e | y
    · simp [bind, Except.bind]
    · rcases hxs : xs.mapM f with e | ys'
      · simp [bind, Except.bind, ← ih, hxs]
      · simp [bind, Except.bind, pure, Except.pure, ← ih, hxs, eq_comm]

theorem exists_forall₂_iff {α β : Type} {R : α → β → Prop} {xs : List α} :
    (∃ ys, List.Forall₂ R xs ys) ↔ ∀ x ∈ xs, ∃ y, R x y := by
  induction xs with
  | nil => simp
  | cons x xs ih =>
    rw [List.forall_mem_cons, ← ih]
    constructor
    · rintro ⟨_, _ | ⟨hx, hxs⟩⟩
      exact ⟨⟨_, hx⟩, _, hxs⟩
    · rintro ⟨⟨y, hx⟩, ys, hxs⟩
      exact ⟨y :: ys, .cons hx hxs⟩

theorem parseField_eq_ok_iff {t : Text × Nat} {f : Field} :
    parseField t = .ok f ↔ f.DescribedBy t.1 := by
  rw [← Field.ofToken_eq_ok_iff, parseField]
  rcases Field.ofToken t.1 with (_ | _) | g <;> simp

/-- A request that can be read: a name and at least one field, besides flags. -/
def IsRequest (tokens : List Text) : Prop :=
  ∃ name fields, plain tokens = name :: fields ∧ fields ≠ [] ∧ ∀ t ∈ fields, IsField t

/-- What is read from a request. -/
structure ReadFrom (naming : Naming) (tokens : List Text) (m : Model) : Prop where
  /-- The first plain token is the name, whatever is in it, and the others describe the fields. -/
  words : ∃ name fields, plain tokens = name :: fields ∧ m.name = naming.modelName name ∧
    List.Forall₂ (fun t f => Field.DescribedBy f t) fields m.fields
  entity : m.entity = naming.entityName m.name
  flags : ∀ flag, LastValue flag tokens (m.conformances.get flag)

variable {naming : Naming} {tokens : List Text} {m : Model}

theorem parse_eq_ok_iff :
    parse naming tokens = .ok m ↔ m.fields ≠ [] ∧ ReadFrom naming tokens m := by
  have hplain := map_fst_positional tokens
  constructor
  · intro h
    unfold parse at h
    split at h
    · next raw i t ts hp =>
      rcases hf : (t :: ts).mapM parseField with e | fields
      · rw [hf] at h
        cases h
      · rw [hf] at h
        cases h
        simp only [mapM_eq_ok_iff, parseField_eq_ok_iff] at hf
        rw [hp, List.map_cons] at hplain
        refine ⟨?_, ⟨raw, _, hplain.symm, rfl, List.forall₂_map_left_iff.2 hf⟩, rfl,
          flagged_eq_iff.1 rfl⟩
        rintro rfl
        cases hf
    · cases h
  · rintro ⟨hne, ⟨⟨raw, words, hp, hn, hf⟩, he, hflags⟩⟩
    rw [hp, List.map_eq_cons_iff] at hplain
    obtain ⟨⟨_, i⟩, ps, hpos, rfl, rfl⟩ := hplain
    rw [List.forall₂_map_left_iff] at hf
    obtain ⟨name, entity, fields, conformances⟩ := m
    dsimp only at hne hn he hf
    subst hn he
    rcases ps with _ | ⟨t, ts⟩
    · exact absurd (List.forall₂_nil_left_iff.1 hf) hne
    · have hfields : (t :: ts).mapM parseField = .ok fields := by
        simpa only [mapM_eq_ok_iff, parseField_eq_ok_iff] using hf
      rw [parse, hpos]
      simp only [hfields, flagged_eq_iff.2 hflags]
      rfl

end Model

open Model

/-- Exactly the requests of the grammar are read. What is read depends only on the plain tokens and
on the last value of each flag. -/
theorem parse_grammar (naming : Naming) (tokens : List Text) :
    ((∃ m, Model.parse naming tokens = .ok m) ↔ IsRequest tokens) ∧
    (∀ m, Model.parse naming tokens = .ok m → ReadFrom naming tokens m) ∧
    ∀ tokens', plain tokens' = plain tokens →
      (∀ flag value, LastValue flag tokens' value ↔ LastValue flag tokens value) →
        (Model.parse naming tokens').toOption = (Model.parse naming tokens).toOption := by
  refine ⟨⟨?_, ?_⟩, fun m h => (parse_eq_ok_iff.1 h).2, fun tokens' hp hl => ?_⟩
  · rintro ⟨m, h⟩
    obtain ⟨hne, ⟨name, fields, hp, -, hf⟩, -, -⟩ := parse_eq_ok_iff.1 h
    refine ⟨name, fields, hp, ?_, fun t ht => ?_⟩
    · rintro rfl
      exact hne (List.forall₂_nil_left_iff.1 hf)
    · exact Field.exists_describedBy_iff.1 (exists_forall₂_iff.1 ⟨_, hf⟩ t ht)
  · rintro ⟨name, fields, hp, hne, hfields⟩
    obtain ⟨fs, hf⟩ := exists_forall₂_iff.2 fun t ht =>
      Field.exists_describedBy_iff.2 (hfields t ht)
    let m : Model :=
      ⟨naming.modelName name, naming.entityName (naming.modelName name), fs, flagged tokens⟩
    refine ⟨m, parse_eq_ok_iff.2 ⟨?_, ⟨name, fields, hp, rfl, hf⟩, rfl, flagged_eq_iff.1 rfl⟩⟩
    rintro rfl
    exact hne (List.forall₂_nil_right_iff.1 hf)
  · have hread : ∀ m, ReadFrom naming tokens' m ↔ ReadFrom naming tokens m := by
      intro m
      constructor
      · rintro ⟨hw, he, hf⟩
        exact ⟨hp ▸ hw, he, fun flag => (hl _ _).1 (hf flag)⟩
      · rintro ⟨hw, he, hf⟩
        exact ⟨hp.symm ▸ hw, he, fun flag => (hl _ _).2 (hf flag)⟩
    have hsome : ∀ tokens (m : Model), (Model.parse naming tokens).toOption = some m ↔
        Model.parse naming tokens = .ok m := by
      intro tokens m
      cases Model.parse naming tokens <;> simp [Except.toOption]
    refine Option.ext fun m => ?_
    rw [hsome, hsome, parse_eq_ok_iff, parse_eq_ok_iff, hread]

end Scaffold
