import Scaffold.Layout.Code
import Scaffold.Proofs.Layout.Level
import Scaffold.Proofs.Text.Lines

/-! Levels of nested code. Steps are carried out as a flat run of events, in which blocks open and
close (`steps_eq_run`). Where no block takes back more than was indented in it, no event goes back
from the outermost level (`levelBehind?_steps`), and the level is the number of open blocks and of
indents in force (`level_run`). Main statement: `steps_nested`. -/

namespace Scaffold.Code

/-! ### Events -/

/-- What carrying out a step comes to. -/
inductive Event where
  | write (t : Text)
  | deeper
  | shallower
  | opened
  | closed
  deriving DecidableEq, Repr

def Event.isWrite : Event → Bool
  | .write _ => true
  | _ => false

mutual

/-- The events of a step: the body of a block lies between its header and its closing line. -/
def Step.events : Step → List Event
  | .line t => [.write t]
  | .deeper => [.deeper]
  | .shallower => [.shallower]
  | .block header close body =>
    .write header :: .opened :: (allEvents body ++ [.closed, .write close])
  | .when condition body => if condition then allEvents body else []

/-- The events of steps in order. -/
def allEvents : List Step → List Event
  | [] => []
  | s :: ss => s.events ++ allEvents ss

end

/-- Code behind an event. -/
def Event.apply (c : Code) : Event → Code
  | .write t => c.line t
  | .deeper | .opened => c.deeper
  | .shallower | .closed => c.shallower

def run (c : Code) (es : List Event) : Code := es.foldl Event.apply c

variable {c c' : Code} {s s' : Step} {ss body : List Step} {es es' : List Event} {n k : ℕ}

@[simp] theorem run_nil (c : Code) : run c [] = c := rfl

@[simp] theorem run_cons (c : Code) (e : Event) (es : List Event) :
    run c (e :: es) = run (e.apply c) es := rfl

theorem run_append (c : Code) (es es' : List Event) : run c (es ++ es') = run (run c es) es' :=
  List.foldl_append

mutual

theorem step_eq_run (c : Code) : (s : Step) → step c s = run c s.events
  | .line t => by rw [step, Step.events]; rfl
  | .deeper => by rw [step, Step.events]; rfl
  | .shallower => by rw [step, Step.events]; rfl
  | .block header close body => by
    rw [step, Step.events, run_cons, run_cons, run_append, ← steps_eq_run _ body]
    rfl
  | .when condition body => by
    rw [step, Step.events]
    cases condition with
    | true => exact steps_eq_run c body
    | false => rfl

/-- Steps are carried out event by event. -/
theorem steps_eq_run (c : Code) : (ss : List Step) → steps c ss = run c (allEvents ss)
  | [] => by rw [steps, allEvents]; rfl
  | s :: ss => by
    rw [steps, allEvents, run_append, ← step_eq_run c s]
    exact steps_eq_run _ ss

end

/-! ### Levels -/

/-- How many blocks are open behind events. -/
def openBlocks (es : List Event) : ℤ := es.count .opened - es.count .closed

/-- How many indents are in force behind events. -/
def netIndents (es : List Event) : ℤ := es.count .deeper - es.count .shallower

/-- The level behind an event. From the outermost level nothing leads back. -/
def Event.level? (n : ℕ) : Event → Option ℕ
  | .write _ => some n
  | .deeper | .opened => some (n + 1)
  | .shallower | .closed => if n = 0 then none else some (n - 1)

/-- The level behind events. -/
def levelBehind? (n : ℕ) (es : List Event) : Option ℕ := es.foldlM Event.level? n

@[simp] theorem openBlocks_append (es es' : List Event) :
    openBlocks (es ++ es') = openBlocks es + openBlocks es' := by
  simp only [openBlocks, List.count_append]
  omega

@[simp] theorem netIndents_append (es es' : List Event) :
    netIndents (es ++ es') = netIndents es + netIndents es' := by
  simp only [netIndents, List.count_append]
  omega

theorem of_level? {e : Event} (h : e.level? c.level = some k) :
    (e.apply c).level = k ∧ (k : ℤ) = c.level + openBlocks [e] + netIndents [e] := by
  have hback : (if c.level = 0 then none else some (c.level - 1)) = some k →
      c.shallower.level = k ∧ (k : ℤ) = c.level - 1 := by
    intro h
    split_ifs at h with h0
    obtain rfl := Option.some.inj h
    exact ⟨rfl, by omega⟩
  cases e with
  | write | deeper | opened =>
    cases h
    exact ⟨rfl, by simp [openBlocks, netIndents]⟩
  | shallower | closed =>
    obtain ⟨hlevel, hk⟩ := hback h
    exact ⟨hlevel, by simp [hk, openBlocks, netIndents, Int.sub_eq_add_neg]⟩

theorem levelBehind?_cons (n : ℕ) (e : Event) (es : List Event) :
    levelBehind? n (e :: es) = (e.level? n).bind fun m => levelBehind? m es := rfl

theorem levelBehind?_append (n : ℕ) (es es' : List Event) :
    levelBehind? n (es ++ es') = (levelBehind? n es).bind fun m => levelBehind? m es' :=
  List.foldlM_append

/-- Where no event meets the outermost level, the level is made up of the blocks that are open and
the indents in force. -/
theorem level_run (h : levelBehind? c.level es = some k) :
    (run c es).level = k ∧ (k : ℤ) = c.level + openBlocks es + netIndents es := by
  induction es generalizing c with
  | nil =>
    cases h
    exact ⟨rfl, by simp [openBlocks, netIndents]⟩
  | cons e es ih =>
    rw [levelBehind?_cons, Option.bind_eq_some_iff] at h
    obtain ⟨m, he, hes⟩ := h
    obtain ⟨rfl, hm⟩ := of_level? he
    obtain ⟨hlevel, hk⟩ := ih hes
    refine ⟨hlevel, ?_⟩
    rw [← List.singleton_append, openBlocks_append, netIndents_append]
    omega

mutual

/-- How many indents are in force behind a step, if `n` of them were made in the same block before
it. No more than these can be taken back, and what is made in the body of a block has to be taken
back there. Only steps that are carried out count. -/
def Step.indentsBehind? (n : ℕ) : Step → Option ℕ
  | .line _ => some n
  | .deeper => some (n + 1)
  | .shallower => if n = 0 then none else some (n - 1)
  | .block _ _ body => if indentsBehind? 0 body = some 0 then some n else none
  | .when condition body => if condition then indentsBehind? n body else some n

/-- How many indents are in force behind steps. -/
def indentsBehind? (n : ℕ) : List Step → Option ℕ
  | [] => some n
  | s :: ss => (s.indentsBehind? n).bind fun m => indentsBehind? m ss

end

theorem indentsBehind?_cons : indentsBehind? n (s :: ss) = some k ↔
    ∃ m, s.indentsBehind? n = some m ∧ indentsBehind? m ss = some k := by
  rw [indentsBehind?, Option.bind_eq_some_iff]

theorem indentsBehind?_block {header close : Text} :
    (Step.block header close body).indentsBehind? n = some k ↔
      indentsBehind? 0 body = some 0 ∧ n = k := by
  rw [Step.indentsBehind?]
  split_ifs with h
  · rw [Option.some.injEq, and_iff_right h]
  · simp [h]

mutual

/-- Inside of `base` levels the events of a step lead as many levels up as there are indents in
force. -/
theorem levelBehind?_step (base : ℕ) : ∀ {n k : ℕ} (s : Step), s.indentsBehind? n = some k →
    levelBehind? (base + n) s.events = some (base + k)
  | n, k, .line t, h => by
    rw [Step.indentsBehind?] at h
    cases h
    rw [Step.events]
    rfl
  | n, k, .deeper, h => by
    rw [Step.indentsBehind?] at h
    cases h
    rw [Step.events]
    rfl
  | n, k, .shallower, h => by
    rw [Step.indentsBehind?] at h
    split_ifs at h with hn
    obtain rfl := Option.some.inj h
    have hpos : base + n ≠ 0 := by omega
    rw [Step.events, levelBehind?_cons, Event.level?, if_neg hpos, Nat.add_sub_assoc (by omega)]
    rfl
  | n, k, .block header close body, h => by
    obtain ⟨hbody, rfl⟩ := indentsBehind?_block.1 h
    have hin := levelBehind?_steps (base + n + 1) body hbody
    rw [Nat.add_zero] at hin
    rw [Step.events, levelBehind?_cons, Event.level?, Option.bind_some, levelBehind?_cons,
      Event.level?, Option.bind_some, levelBehind?_append, hin, Option.bind_some]
    rfl
  | n, k, .when condition body, h => by
    rw [Step.indentsBehind?] at h
    rw [Step.events]
    cases condition with
    | true => exact levelBehind?_steps base body h
    | false =>
      cases h
      rfl

theorem levelBehind?_steps (base : ℕ) : ∀ {n k : ℕ} (ss : List Step),
    indentsBehind? n ss = some k → levelBehind? (base + n) (allEvents ss) = some (base + k)
  | n, k, [], h => by
    rw [indentsBehind?] at h
    cases h
    rw [allEvents]
    rfl
  | n, k, s :: ss, h => by
    obtain ⟨m, hs, hss⟩ := indentsBehind?_cons.1 h
    rw [allEvents, levelBehind?_append, levelBehind?_step base s hs, Option.bind_some]
    exact levelBehind?_steps base ss hss

end

/-! ### Lines -/

/-- The line that an event adds to code. -/
def Event.lines (c : Code) : Event → List Text
  | .write t => [c.indent.ofLevel c.level ++ t]
  | _ => []

/-- The lines that events add to code. -/
def linesOf (c : Code) : List Event → List Text
  | [] => []
  | e :: es => e.lines c ++ linesOf (e.apply c) es

theorem linesOf_append (c : Code) (es es' : List Event) :
    linesOf c (es ++ es') = linesOf c es ++ linesOf (run c es) es' := by
  induction es generalizing c with
  | nil => rfl
  | cons e es ih => rw [List.cons_append, linesOf, linesOf, ih, List.append_assoc, run_cons]

theorem length_linesOf (c : Code) (es : List Event) :
    (linesOf c es).length = es.countP Event.isWrite := by
  induction es generalizing c with
  | nil => rfl
  | cons e es ih =>
    rw [linesOf, List.length_append, ih, List.countP_cons, Nat.add_comm]
    cases e <;> rfl

/-- Code grows at its end, by lines. -/
theorem run_eq (c : Code) (es : List Event) :
    run c es = { c with
      level := (run c es).level
      text := c.text ++ Text.unlines (linesOf c es) } := by
  induction es generalizing c with
  | nil => simp [linesOf]
  | cons e es ih =>
    rw [run_cons, ih]
    cases e <;> simp [linesOf, Event.apply, Event.lines, line, deeper, shallower]

/-! ### Nested steps -/

/-- The white space in front of the next line. -/
def front (c : Code) : Text := (List.replicate c.level c.indent.unit).flatten

/-- Carrying out steps on code comes to a step, which finds the code as `c'`. -/
inductive Reaches : Code → List Step → Code → Step → Prop
  | here {c : Code} {s : Step} {ss : List Step} : Reaches c (s :: ss) c s
  | later {c c' : Code} {s s' : Step} {ss : List Step} :
      Reaches (step c s) ss c' s' → Reaches c (s :: ss) c' s'
  | inBlock {c c' : Code} {header close : Text} {body ss : List Step} {s' : Step} :
      Reaches (c.line header).deeper body c' s' → Reaches c (.block header close body :: ss) c' s'
  | inWhen {c c' : Code} {body ss : List Step} {s' : Step} :
      Reaches c body c' s' → Reaches c (.when true body :: ss) c' s'

/-- Steps that keep to their blocks only come to steps that do. -/
theorem Reaches.keeps (h : Reaches c ss c' s') (hn : indentsBehind? n ss = some k) :
    ∃ n' k', s'.indentsBehind? n' = some k' := by
  induction h generalizing n k with
  | here =>
    obtain ⟨m, hs, -⟩ := indentsBehind?_cons.1 hn
    exact ⟨n, m, hs⟩
  | later _ ih =>
    obtain ⟨m, -, hss⟩ := indentsBehind?_cons.1 hn
    exact ih hss
  | inBlock _ ih =>
    obtain ⟨m, hs, -⟩ := indentsBehind?_cons.1 hn
    exact ih (indentsBehind?_block.1 hs).1
  | inWhen _ ih =>
    obtain ⟨m, hs, -⟩ := indentsBehind?_cons.1 hn
    rw [Step.indentsBehind?, if_pos rfl] at hs
    exact ih hs

/-- A block whose body takes back all that it indents, and nothing else, ends as it begins. -/
theorem step_block {header close : Text} (h : indentsBehind? 0 body = some 0) (c : Code) :
    ∃ ls, step c (.block header close body) = { c with
      text := c.text ++ Text.unlines ((c.front ++ header) :: ls ++ [c.front ++ close]) } := by
  have hlevels := levelBehind?_steps (c.level + 1) body h
  have hlevel : (steps (c.line header).deeper body).level = c.level + 1 := by
    rw [steps_eq_run]
    exact (level_run (c := (c.line header).deeper) hlevels).1
  have hbody := run_eq (c.line header).deeper (allEvents body)
  rw [← steps_eq_run, hlevel] at hbody
  refine ⟨linesOf (c.line header).deeper (allEvents body), ?_⟩
  rw [step, hbody]
  simp [line, deeper, shallower, front, Indent.ofLevel_eq_flatten]

/-- Events have added one line for each text behind code, each behind as many units of indentation
as there are blocks around it and indents in force. -/
structure Grows (c c' : Code) (es : List Event) (ls : List Text) : Prop where
  indent : c'.indent = c.indent
  text : c'.text = c.text ++ Text.unlines ls
  length : ls.length = es.countP Event.isWrite
  line : ∀ before t after, es = before ++ .write t :: after →
    ∃ n : ℕ, (n : ℤ) = c.level + openBlocks before + netIndents before ∧
      ls[before.countP Event.isWrite]? = some ((List.replicate n c.indent.unit).flatten ++ t)

/-- If steps take back no more than was indented before, and in the body of each block just what was
indented there, then all they do is add lines, one for each text, each behind as many units as there
are blocks around it and indents in force. Each block they come to ends on the level on which it
begins, and its closing line stands behind the same white space as its header. -/
theorem steps_nested (c : Code) (ss : List Step) (h : indentsBehind? c.level ss = some k) :
    (steps c ss).level = k ∧
    (∃ ls, Grows c (steps c ss) (allEvents ss) ls) ∧
    ∀ c' header close body, Reaches c ss c' (.block header close body) →
      ∃ ls, step c' (.block header close body) = { c' with
        text := c'.text ++ Text.unlines ((c'.front ++ header) :: ls ++ [c'.front ++ close]) } := by
  have hlevels := levelBehind?_steps 0 ss h
  rw [Nat.zero_add, Nat.zero_add] at hlevels
  rw [steps_eq_run]
  refine ⟨(level_run hlevels).1, ⟨linesOf c (allEvents ss), ?_⟩, ?_⟩
  · rw [run_eq]
    refine ⟨rfl, rfl, length_linesOf c _, fun before t after hes => ?_⟩
    rw [hes, levelBehind?_append, Option.bind_eq_some_iff] at hlevels
    obtain ⟨m, hbefore, -⟩ := hlevels
    obtain ⟨hm, hsum⟩ := level_run hbefore
    refine ⟨m, hsum, ?_⟩
    have hindent : (run c before).indent = c.indent := by rw [run_eq]
    rw [hes, linesOf_append, ← length_linesOf c before, List.getElem?_append_right le_rfl,
      Nat.sub_self, linesOf, Event.lines, hm, hindent, Indent.ofLevel_eq_flatten]
    rfl
  · intro c' header close body hr
    obtain ⟨n', k', hblock⟩ := hr.keeps h
    exact step_block (indentsBehind?_block.1 hblock).1 c'

/-- A block in a block, with an indent that is taken back under a condition, and steps under a
condition that does not hold. -/
def nestedSteps : List Step :=
  [.deeper,
    .block "a" "z" [.deeper, .line "b", .when true [.line "c", .shallower],
      .block "d" "y" [.line "e"], .when false [.shallower, .line "f"]],
    .shallower, .line "g"]

theorem steps_nested_tabs :
    indentsBehind? 0 nestedSteps = some 0 ∧
    write .tab nestedSteps = "\ta\n\t\t\tb\n\t\t\tc\n\t\td\n\t\t\te\n\t\ty\n\tz\ng\n".toList ∧
    (steps { indent := .tab } nestedSteps).level = 0 ∧
    (∃ ls, Grows { indent := .tab } (steps { indent := .tab } nestedSteps)
      (allEvents nestedSteps) ls) ∧
    ∀ c' header close body, Reaches { indent := .tab } nestedSteps c' (.block header close body) →
      ∃ ls, step c' (.block header close body) = { c' with
        text := c'.text ++ Text.unlines ((c'.front ++ header) :: ls ++ [c'.front ++ close]) } := by
  have h : indentsBehind? 0 nestedSteps = some 0 := rfl
  exact ⟨h, rfl, steps_nested { indent := .tab } nestedSteps h⟩

end Scaffold.Code
