import TemplateStyler.Proofs.Lexeme.Names
import TemplateStyler.Lexeme.Scan

/-!
# Registries that agree on a text

Of a registry only those names have a say in a scan that occur in the text.

* `Registry.AgreeOn`: two registries have the same names among the parts of a text.
* `Rule.extent?_congr`: then every rule takes the same, and so
* `Grammar.scan_congr`: **the scans of the text are the same**, however the names are sorted.
-/

namespace TemplateStyler

open Text Lexeme

/-- Two registries have the same names among the parts of a text. -/
structure Registry.AgreeOn (r r' : Registry) (text : Text) : Prop where
  argumentTags : ∀ w, w <:+: text → (w ∈ r.argumentTags ↔ w ∈ r'.argumentTags)
  plainTags : ∀ w, w <:+: text → (w ∈ r.plainTags ↔ w ∈ r'.plainTags)
  builtins : ∀ w, w <:+: text → (w ∈ r.builtins ↔ w ∈ r'.builtins)
  headerKeys : ∀ w, w <:+: text → (w ∈ r.headerKeys ↔ w ∈ r'.headerKeys)

variable {r r' : Registry} {text part : Text}

theorem Registry.AgreeOn.mono (h : r.AgreeOn r' text) (hpart : part <:+: text) :
    r.AgreeOn r' part where
  argumentTags w hw := h.argumentTags w (hw.trans hpart)
  plainTags w hw := h.plainTags w (hw.trans hpart)
  builtins w hw := h.builtins w (hw.trans hpart)
  headerKeys w hw := h.headerKeys w (hw.trans hpart)

/-! ### Readers of names -/

/-- Of the names, only those among the parts of the text have a say in what is read in it. -/
theorem named_longestFirst_congr {names names' : List Text}
    (h : ∀ w, w <:+: text → (w ∈ names ↔ w ∈ names')) (hpart : part <:+: text)
    (reader : Text → Option Nat) :
    named (longestFirst names) reader part = named (longestFirst names') reader part := by
  refine named_congr (descending_longestFirst _) (descending_longestFirst _) (fun name hname => ?_)
    reader
  rw [mem_longestFirst, mem_longestFirst]
  exact h name (hname.isInfix.trans hpart)

theorem isInfix_drop (text : Text) (n : Nat) : text.drop n <:+: text :=
  (List.drop_suffix n text).isInfix

/-- **Every rule takes the same.** Only two of them look at names. -/
theorem Rule.extent?_congr (h : r.AgreeOn r' text) (lineStart : Bool) (rule : Rule) :
    rule.extent? r.grammar lineStart text = rule.extent? r'.grammar lineStart text := by
  cases rule with
  | argumentTag =>
    refine Option.bind_congr fun n _ => congrArg _ ?_
    exact named_longestFirst_congr h.argumentTags (isInfix_drop text n) _
  | headerKey =>
    simp only [Rule.extent?, afterBlanks, Registry.grammar,
      named_longestFirst_congr h.headerKeys (isInfix_drop text _)]
  | _ => rfl

namespace Grammar

theorem extent_congr (h : r.AgreeOn r' text) (lineStart : Bool) :
    r.grammar.extent lineStart text = r'.grammar.extent lineStart text := by
  have hrules : Rule.extent? r.grammar lineStart text = Rule.extent? r'.grammar lineStart text :=
    funext fun rule => Rule.extent?_congr h lineStart rule
  rw [extent, extent, hrules]

/-- **The scans of a text by registries that agree on it are the same.** -/
theorem scan_congr (h : r.AgreeOn r' text) (pos : Nat) (lineStart : Bool) :
    r.grammar.scan pos lineStart text = r'.grammar.scan pos lineStart text := by
  fun_induction scan r.grammar pos lineStart text with
  | case1 => rw [scan]
  | case2 pos lineStart c cs n lexeme ih =>
    have hn : r'.grammar.extent lineStart (c :: cs) = n := (extent_congr h lineStart).symm
    rw [ih (h.mono (isInfix_drop _ _)), scan, hn]

end Grammar

end TemplateStyler
