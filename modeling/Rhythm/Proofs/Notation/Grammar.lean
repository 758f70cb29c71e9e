import Rhythm.Proofs.Notation.Shape

/-! The grammar of the notation, apart from how it is read.

    segment = accent? body
    accent  = '{' term '}'
    body    = chain tail*
    chain   = combo combo*
    combo   = term (('+' | '-') term)*
    tail    = ';' '-'? int | letter? '>' int | '*' int | ('+' | '%') '-'? int | '@' '-'? int
    term    = ('~' | 'inv' | 'comp' | 'rev') term | primary
    primary = digits (':' int)? | numeral (':' int)? | 'M:' morse | '[' ints ']' (':' int)?
            | letter '(' args ')' | preset

A phrase is a list of tokens. What it says may depend on the tokens after it. -/
namespace Rhythm.Notation

open Text

/-- The place of the last token of a phrase. If there is none, it is the place before. -/
def lastSpan (before : Span) : List Lexeme → Span
  | [] => before
  | l :: ls => lastSpan l.span ls

/-- The stretch of a phrase, from its first token to its last. -/
def stretch : List Lexeme → Span
  | [] => ⟨0, 0⟩
  | l :: ls => l.span.join (lastSpan l.span ls)

/-- A mark comes first. -/
def Starts (m : Mark) (ls : List Lexeme) : Prop := ls.head?.map (·.token) = some (.mark m)

/-- One more combo may start here, or the term of a word operator. A word right before `>` is a
transformer. -/
inductive Opens : List Lexeme → Prop
  | digits {l : Lexeme} {ls : List Lexeme} {ds : List Char} (ht : l.token = .digits ds) :
    Opens (l :: ls)
  | code {l : Lexeme} {ls : List Lexeme} {radix : Radix} {ds : List Char}
    (ht : l.token = .code radix ds) : Opens (l :: ls)
  | morse {l : Lexeme} {ls : List Lexeme} {text : List Char} (ht : l.token = .morse text) :
    Opens (l :: ls)
  | bracket {l : Lexeme} {ls : List Lexeme} (ht : l.token = .mark .leftBracket) : Opens (l :: ls)
  | tilde {l : Lexeme} {ls : List Lexeme} (ht : l.token = .mark .tilde) : Opens (l :: ls)
  | word {l : Lexeme} {ls : List Lexeme} {name : List Char} (ht : l.token = .word name)
    (hg : ¬ Starts .greater ls) : Opens (l :: ls)

/-- What stands after the integer of an offset: nothing, another tail but no plus, or a closing
brace. -/
inductive Closes : List Lexeme → Prop
  | nil : Closes []
  | mark {l : Lexeme} {ls : List Lexeme} {m : Mark} (ht : l.token = .mark m)
    (hm : m ∈ [Mark.semicolon, .greater, .star, .at, .percent, .rightBrace]) : Closes (l :: ls)
  | transformer {l : Lexeme} {ls : List Lexeme} {name : List Char} (ht : l.token = .word name)
    (hg : Starts .greater ls) : Closes (l :: ls)

/-- What stands after a plus that does not go on a combo but makes an offset. -/
inductive Offsets : List Lexeme → Prop
  | plain {l : Lexeme} {ls : List Lexeme} {ds : List Char} (ht : l.token = .digits ds)
    (hc : Closes ls) : Offsets (l :: ls)
  | negative {s l : Lexeme} {ls : List Lexeme} {ds : List Char} (hs : s.token = .mark .minus)
    (ht : l.token = .digits ds) (hc : Closes ls) : Offsets (s :: l :: ls)

/-- Where a word may be the name of a pattern. -/
inductive Naming
  /-- Wherever a pattern is wanted. -/
  | anywhere
  /-- Wherever a pattern is wanted, but not right before `>`. -/
  | clear

def Naming.Allows : Naming → List Lexeme → Prop
  | .anywhere, _ => True
  | .clear, rest => ¬ Starts .greater rest

namespace Phrase

/-- An integer, with at most a minus in front. -/
inductive Integer : List Lexeme → Int → Prop
  | plain {l : Lexeme} {ds : List Char} (ht : l.token = .digits ds)
    (hn : decimalValue ds ≤ maxInteger) : Integer [l] (decimalValue ds)
  | negative {s l : Lexeme} {ds : List Char} (hs : s.token = .mark .minus)
    (ht : l.token = .digits ds) (hn : decimalValue ds ≤ maxInteger) :
    Integer [s, l] (-(decimalValue ds : Int))

/-- An integer that is not negative. Only nought may have a minus. -/
inductive Count : List Lexeme → Nat → Prop
  | plain {l : Lexeme} {ds : List Char} (ht : l.token = .digits ds)
    (hn : decimalValue ds ≤ maxInteger) : Count [l] (decimalValue ds)
  | nought {s l : Lexeme} {ds : List Char} (hs : s.token = .mark .minus)
    (ht : l.token = .digits ds) (hn : decimalValue ds = 0) : Count [s, l] 0

/-- A length after a colon, or nothing. -/
inductive Length : List Lexeme → Option Nat → Prop
  | absent : Length [] none
  | given {c : Lexeme} {ts : List Lexeme} {n : Nat} (hc : c.token = .mark .colon)
    (h : Count ts n) : Length (c :: ts) (some n)

/-- Integers with commas between them, at least one. -/
inductive Integers : List Lexeme → List Int → Prop
  | one {ts : List Lexeme} {n : Int} (h : Integer ts n) : Integers ts [n]
  | more {ts us : List Lexeme} {c : Lexeme} {n : Int} {ns : List Int} (h : Integer ts n)
    (hc : c.token = .mark .comma) (hs : Integers us ns) : Integers (ts ++ c :: us) (n :: ns)

/-- Counts with commas between them. A comma may stand after the last one. -/
inductive Positions : List Lexeme → List Nat → Prop
  | none : Positions [] []
  | one {ts : List Lexeme} {n : Nat} (h : Count ts n) : Positions ts [n]
  | more {ts us : List Lexeme} {c : Lexeme} {n : Nat} {ns : List Nat} (h : Count ts n)
    (hc : c.token = .mark .comma) (hs : Positions us ns) : Positions (ts ++ c :: us) (n :: ns)

/-- The length of a pattern given by its onsets: enough for all of them and at least eight, unless
it is given. -/
def onsetLength (ns : List Nat) (length? : Option Nat) : Nat :=
  clampSteps (length?.getD ((ns.map (· + 1)).foldl max 8))

/-- The arguments of a family in their parentheses. Random placement may have `r` for its number of
onsets. -/
inductive Call : Family → List Lexeme → (Span → Expr) → Prop
  | generator {l r : Lexeme} {ts : List Lexeme} {family : Family} {ns : List Int}
    (hl : l.token = .mark .leftParen) (hns : Integers ts ns) (hr : r.token = .mark .rightParen)
    (ht : family.Takes ns) : Call family (l :: (ts ++ [r])) (.generator family ns)
  | bell {l b c r : Lexeme} {ts : List Lexeme} {name : List Char} {steps : Nat}
    (hl : l.token = .mark .leftParen) (hb : b.token = .word name)
    (hname : sameWord name ['r'] = true) (hc : c.token = .mark .comma) (hn : Count ts steps)
    (hr : r.token = .mark .rightParen) :
    Call .random (l :: b :: c :: (ts ++ [r])) (.bell steps none)
  | seededBell {l b c k r : Lexeme} {ts us : List Lexeme} {name : List Char} {steps seed : Nat}
    (hl : l.token = .mark .leftParen) (hb : b.token = .word name)
    (hname : sameWord name ['r'] = true) (hc : c.token = .mark .comma) (hn : Count ts steps)
    (hk : k.token = .mark .comma) (hs : Count us seed) (hr : r.token = .mark .rightParen) :
    Call .random (l :: b :: c :: ((ts ++ k :: us) ++ [r])) (.bell steps (some (.ofNat seed)))

inductive Primary (naming : Naming) : List Lexeme → List Lexeme → Expr → Prop
  | binary {l : Lexeme} {ts rest : List Lexeme} {ds : List Char} {p : Pattern} {n? : Option Nat}
    (hl : l.token = .digits ds) (hd : ∀ d ∈ ds, d = '0' ∨ d = '1') (hp : Pattern.ofBits ds = .ok p)
    (hn : Length ts n?) : Primary naming (l :: ts) rest (.literal ((n?.map p.resize).getD p))
  | decimal {l : Lexeme} {ts rest : List Lexeme} {ds : List Char} {p : Pattern} {n? : Option Nat}
    (hl : l.token = .digits ds) (hd : ¬ ∀ d ∈ ds, d = '0' ∨ d = '1') (hn : Length ts n?)
    (hp : decode .decimal ds n? = .ok p) : Primary naming (l :: ts) rest (.literal p)
  | code {l : Lexeme} {ts rest : List Lexeme} {radix : Radix} {ds : List Char} {p : Pattern}
    {n? : Option Nat} (hl : l.token = .code radix ds) (hn : Length ts n?)
    (hp : decode radix ds n? = .ok p) : Primary naming (l :: ts) rest (.literal p)
  | morse {l : Lexeme} {rest : List Lexeme} {text : List Char} {p : Pattern}
    (hl : l.token = .morse text) (hp : morse text = .ok p) : Primary naming [l] rest (.literal p)
  | onsets {l r : Lexeme} {ts us rest : List Lexeme} {ns : List Nat} {n? : Option Nat}
    (hl : l.token = .mark .leftBracket) (hns : Positions ts ns)
    (hr : r.token = .mark .rightBracket) (hn : Length us n?)
    (hlt : ∀ n ∈ ns, n < onsetLength ns n?) :
    Primary naming (l :: (ts ++ r :: us)) rest (.literal (.ofOnsets ns (onsetLength ns n?)))
  | call {w : Lexeme} {ts rest : List Lexeme} {name : List Char} {family : Family}
    {make : Span → Expr} (hw : w.token = .word name) (hf : Family.ofName? name = some family)
    (h : Call family ts make) : Primary naming (w :: ts) rest (make (stretch (w :: ts)))
  | preset {w : Lexeme} {rest : List Lexeme} {name : List Char} {p : Pattern}
    (hw : w.token = .word name) (hp : preset? name = some p) (ha : naming.Allows rest) :
    Primary naming [w] rest (.literal p)

/-- A word is an operator only where a term may start after it. -/
inductive Term (naming : Naming) : List Lexeme → List Lexeme → Expr → Prop
  | primary {ts rest : List Lexeme} {e : Expr} (h : Primary naming ts rest e) :
    Term naming ts rest e
  | tilde {l : Lexeme} {ts rest : List Lexeme} {e : Expr} (hl : l.token = .mark .tilde)
    (h : Term naming ts rest e) : Term naming (l :: ts) rest (.invert e)
  | invert {l : Lexeme} {ts rest : List Lexeme} {name : List Char} {e : Expr}
    (hl : l.token = .word name)
    (hname : sameWord name "inv".toList = true ∨ sameWord name "comp".toList = true)
    (ho : Opens (ts ++ rest)) (h : Term naming ts rest e) :
    Term naming (l :: ts) rest (.invert e)
  | reverse {l : Lexeme} {ts rest : List Lexeme} {name : List Char} {e : Expr}
    (hl : l.token = .word name) (hname : sameWord name "rev".toList = true)
    (ho : Opens (ts ++ rest)) (h : Term naming ts rest e) :
    Term naming (l :: ts) rest (.reverse e)

/-- A sign between two terms, in front of what follows it. -/
inductive Sign : Lexeme → List Lexeme → Merge → Prop
  | minus {s : Lexeme} {rest : List Lexeme} (hs : s.token = .mark .minus) : Sign s rest .subtract
  | plus {s : Lexeme} {rest : List Lexeme} (hs : s.token = .mark .plus) (ho : ¬ Offsets rest) :
    Sign s rest .add

inductive Combo (naming : Naming) : List Lexeme → List Lexeme → Expr → Prop
  | term {ts rest : List Lexeme} {e : Expr} (h : Term naming ts rest e) : Combo naming ts rest e
  | merge {ts us rest : List Lexeme} {s : Lexeme} {how : Merge} {left right : Expr}
    (hl : Combo naming ts (s :: (us ++ rest)) left) (hs : Sign s (us ++ rest) how)
    (hr : Term naming us rest right) :
    Combo naming (ts ++ s :: us) rest
      (.combination how left right (stretch (ts ++ s :: us)))

/-- Combos, at least one. -/
inductive Combos (naming : Naming) : List Lexeme → List Lexeme → List Expr → Prop
  | one {ts rest : List Lexeme} {e : Expr} (h : Combo naming ts rest e) :
    Combos naming ts rest [e]
  | more {ts us rest : List Lexeme} {e : Expr} {es : List Expr}
    (h : Combo naming ts (us ++ rest) e) (ho : Opens (us ++ rest))
    (hs : Combos naming us rest es) : Combos naming (ts ++ us) rest (e :: es)

/-- Patterns side by side are strung together. -/
inductive Chain (naming : Naming) : List Lexeme → List Lexeme → Expr → Prop
  | one {ts rest : List Lexeme} {e : Expr} (h : Combo naming ts rest e) : Chain naming ts rest e
  | several {ts rest : List Lexeme} {es : List Expr} (h : Combos naming ts rest es)
    (hl : 2 ≤ es.length) : Chain naming ts rest (.chain es (stretch ts))

inductive Tail : List Lexeme → Rhythm.Notation.Tail → Prop
  | clockwise {l : Lexeme} {ts : List Lexeme} {steps : Nat} (hl : l.token = .mark .semicolon)
    (hn : Count ts steps) (hp : 0 < steps) (hle : steps ≤ maxSteps) :
    Tail (l :: ts) (.quantize steps true)
  | counterclockwise {l s : Lexeme} {ts : List Lexeme} {steps : Nat}
    (hl : l.token = .mark .semicolon) (hs : s.token = .mark .minus) (hn : Count ts steps)
    (hp : 0 < steps) (hle : steps ≤ maxSteps) : Tail (l :: s :: ts) (.quantize steps false)
  | rotate {l : Lexeme} {ts : List Lexeme} {n : Int} (hl : l.token = .mark .at)
    (hn : Integer ts n) : Tail (l :: ts) (.rotate n)
  | transform {l : Lexeme} {ts : List Lexeme} {target : Nat} (hl : l.token = .mark .greater)
    (hn : Count ts target) : Tail (l :: ts) (.evolve (.transform target none))
  | transformBy {w l : Lexeme} {ts : List Lexeme} {name : List Char} {family : Family}
    {target : Nat} (hw : w.token = .word name) (hf : Family.ofName? name = some family)
    (ht : family.isTransformer = true) (hl : l.token = .mark .greater) (hn : Count ts target) :
    Tail (w :: l :: ts) (.evolve (.transform target (some family)))
  | lengthen {l : Lexeme} {ts : List Lexeme} {block : Nat} (hl : l.token = .mark .star)
    (hn : Count ts block) : Tail (l :: ts) (.evolve (.lengthen block))
  | offset {l : Lexeme} {ts : List Lexeme} {step : Int}
    (hl : l.token = .mark .plus ∨ l.token = .mark .percent) (hn : Integer ts step) :
    Tail (l :: ts) (.evolve (.offset step))

/-- A chain with tails, at most one of them progressive. The flag tells whether one is. A plus after
the chain has to make an offset. -/
inductive Body (naming : Naming) : List Lexeme → List Lexeme → Bool → Expr → Prop
  | chain {ts rest : List Lexeme} {e : Expr} (h : Chain naming ts rest e)
    (hp : ∀ l ls, rest = l :: ls → l.token = .mark .plus → Offsets ls) :
    Body naming ts rest false e
  | quantized {ts us rest : List Lexeme} {b : Bool} {e : Expr} {steps : Nat} {clockwise : Bool}
    (h : Body naming ts (us ++ rest) b e) (ht : Tail us (.quantize steps clockwise)) :
    Body naming (ts ++ us) rest b (.quantized e steps clockwise (stretch (ts ++ us)))
  | rotate {ts us rest : List Lexeme} {b : Bool} {e : Expr} {n : Int}
    (h : Body naming ts (us ++ rest) b e) (ht : Tail us (.rotate n)) :
    Body naming (ts ++ us) rest b (.rotate e n)
  | progressive {ts us rest : List Lexeme} {e : Expr} {suffix : Suffix}
    (h : Body naming ts (us ++ rest) false e) (ht : Tail us (.evolve suffix)) :
    Body naming (ts ++ us) rest true (.progressive suffix e)

inductive Segment (naming : Naming) : List Lexeme → Expr → Prop
  | bare {ts : List Lexeme} {b : Bool} {e : Expr} (h : Body naming ts [] b e) :
    Segment naming ts e
  | accented {l r : Lexeme} {ts us : List Lexeme} {b : Bool} {a e : Expr}
    (hl : l.token = .mark .leftBrace) (ha : Term naming ts (r :: us) a)
    (hr : r.token = .mark .rightBrace) (h : Body naming us [] b e) :
    Segment naming (l :: (ts ++ r :: us)) (.accented a e)

end Phrase

end Rhythm.Notation
