import Scaffold.Layout.Indent

/-! The places of a template that generated text is put in, and the tokens that mark them. -/

namespace Scaffold

/-- A place of a template. -/
inductive Placeholder where
  | modelName | entity | properties | initParams | initBody | rowInit | makeRow | jsonInit
  | makeJson | builder | keys | parents | node | viewData | controllerName | title
  deriving DecidableEq, Repr

namespace Placeholder

def all : List Placeholder :=
  [.modelName, .entity, .properties, .initParams, .initBody, .rowInit, .makeRow, .jsonInit,
    .makeJson, .builder, .keys, .parents, .node, .viewData, .controllerName, .title]

theorem mem_all (p : Placeholder) : p ∈ all := by
  cases p <;> decide

/-- The places with one contribution per field. -/
def fieldIndexed : List Placeholder :=
  [.properties, .initParams, .initBody, .rowInit, .makeRow, .jsonInit, .makeJson, .builder, .keys]

/-- The mark of a place. -/
def token : Placeholder → Text
  | .modelName => "VAR_MODEL_NAME"
  | .entity => "VAR_ENTITY"
  | .properties => "VAR_PROPERTIES"
  | .initParams => "VAR_INIT_PARAMS"
  | .initBody => "VAR_INIT_BODY"
  | .rowInit => "VAR_ROW_INIT"
  | .makeRow => "VAR_MAKE_ROW"
  | .jsonInit => "VAR_JSON_INIT"
  | .makeJson => "VAR_MAKE_JSON"
  | .builder => "VAR_BUILDER"
  | .keys => "VAR_KEYS"
  | .parents => "VAR_PARENTS"
  | .node => "VAR_NODE"
  | .viewData => "VAR_VIEW_DATA"
  | .controllerName => "VAR_CONTROLLER_NAME"
  | .title => "VAR_TITLE"

/-- The place marked by exactly this text. -/
def ofToken? (t : Text) : Option Placeholder :=
  all.find? (·.token = t)

/-- How deep a place is nested in the template of a model. -/
def depth : Placeholder → Depth
  | .entity | .properties => .type
  | .initBody | .rowInit | .makeRow | .jsonInit | .makeJson | .keys => .method
  | .builder => .closure
  | _ => .file

/-- The place whose mark a text starts with. -/
def atStart? (t : Text) : Option Placeholder :=
  all.find? (·.token.isPrefixOf t)

/-- No mark is the beginning of another, so at most one stands at the start of a text. -/
theorem eq_of_token_prefix {p q : Placeholder} (h : p.token <+: q.token) : p = q := by
  have distinct : ∀ p ∈ all, ∀ q ∈ all, p.token <+: q.token → p = q := by decide +kernel
  exact distinct p (mem_all p) q (mem_all q) h

end Placeholder
end Scaffold
