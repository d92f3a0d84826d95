import Scaffold.Diagnostic

/-! The tokens of a request written as one line, so that a diagnostic can point at a token. -/

namespace Scaffold.TokenLine

/-- The tokens with one blank between neighbours. -/
def text (tokens : List Text) : Text :=
  Text.join [' '] tokens

/-- Where the tokens stand, if the first one starts at `offset`. -/
def spansFrom (offset : Nat) : List Text → List Span
  | [] => []
  | t :: ts => ⟨offset, t.byteSize⟩ :: spansFrom (offset + t.byteSize + 1) ts

/-- Where each token stands in the line. -/
def spans (tokens : List Text) : List Span :=
  spansFrom 0 tokens

/-- Where the token of an index stands; past the last token, the empty end of the line. -/
def span (tokens : List Text) (index : Nat) : Span :=
  (spans tokens)[index]?.getD ⟨(text tokens).byteSize, 0⟩

/-- The whole line. -/
def wholeSpan (tokens : List Text) : Span :=
  ⟨0, (text tokens).byteSize⟩

end Scaffold.TokenLine
