import Rhythm.Notation.Highlight
import Rhythm.Proofs.Notation.Layout

/-! Highlights show tokens in their usual spelling. A text can mark a radix or morse in other ways,
and then a highlight is not what it covers. -/
namespace Rhythm.Notation

open Text

variable {text piece rest : List Char} {token : Token} {l : Lexeme} {ls : List Lexeme} {n : Nat}

/-- What may stand in front of the digits or the text of a token, the usual sign first. -/
def Token.signs : Token → List (List Char)
  | .code .hex _ => [['0', 'x'], ['0', 'X']]
  | .code .octal _ => [['0', 'o'], ['0', 'O'], ['o'], ['O']]
  | .code .decimal _ => [['d'], ['D']]
  | .morse _ => [['M', ':'], ['m', ':']]
  | .word _ | .digits _ | .mark _ => [[]]

def Token.usualSign (t : Token) : List Char := t.signs.headD []

/-- The token without its sign. -/
def Token.bare : Token → List Char
  | .word name => name
  | .digits ds => ds
  | .code _ ds => ds
  | .morse text => text
  | .mark m => [m.char]

theorem Token.text_eq (t : Token) : t.text = t.usualSign ++ t.bare := by
  cases t with
  | code radix ds => cases radix <;> rfl
  | _ => rfl

/-- No sign is longer than the usual one. -/
theorem Token.length_sign_le {t : Token} {sign : List Char} (h : sign ∈ t.signs) :
    sign.length ≤ t.usualSign.length := by
  have hall : (t.signs.all fun sign => sign.length ≤ t.usualSign.length) = true := by
    cases t with
    | code radix ds => cases radix <;> rfl
    | _ => rfl
  exact of_decide_eq_true (List.all_eq_true.1 hall sign h)

/-- A token is written with one of its signs. -/
theorem Spelled.exists_sign (h : Spelled piece rest token) :
    ∃ sign ∈ token.signs, piece = sign ++ token.bare := by
  cases h with
  | mark m => exact ⟨[], List.mem_singleton_self _, rfl⟩
  | @hex x ds _ hx =>
    have hmem : x ∈ ['x', 'X'] := mem_of_toLower (by decide) (by decide) hx
    refine ⟨['0', x], ?_, rfl⟩
    simpa [Token.signs] using hmem
  | @octal o ds _ ho =>
    have hmem : o ∈ ['o', 'O'] := mem_of_toLower (by decide) (by decide) ho
    refine ⟨['0', o], ?_, rfl⟩
    simpa [Token.signs] using hmem
  | @bareOctal o ds _ ho =>
    have hmem : o ∈ ['o', 'O'] := mem_of_toLower (by decide) (by decide) ho
    refine ⟨[o], ?_, rfl⟩
    simpa [Token.signs] using hmem
  | @decimal d ds _ hd =>
    have hmem : d ∈ ['d', 'D'] := mem_of_toLower (by decide) (by decide) hd
    refine ⟨[d], ?_, rfl⟩
    simpa [Token.signs] using hmem
  | @morse m ds _ hm =>
    have hmem : m ∈ ['M', 'm'] := mem_of_toLower (by decide) (by decide) hm
    refine ⟨[m, ':'], ?_, rfl⟩
    simpa [Token.signs] using hmem
  | digits => exact ⟨[], List.mem_singleton_self _, rfl⟩
  | word => exact ⟨[], List.mem_singleton_self _, rfl⟩

theorem Spelled.length_le (h : Spelled piece rest token) : piece.length ≤ token.text.length := by
  obtain ⟨sign, hsign, rfl⟩ := h.exists_sign
  rw [token.text_eq, List.length_append, List.length_append]
  exact Nat.add_le_add_right (Token.length_sign_le hsign) _

def Lexeme.highlight (l : Lexeme) : Highlight := ⟨l.span, l.token.scope, l.token.text⟩

theorem highlights_eq (h : tokenize 0 text = .ok ls) : highlights text = ls.map (·.highlight) := by
  rw [highlights, h]
  rfl

/-- A text whose first character is at a place, with the texts of highlights instead of what these
cover. -/
def rewritten (place : Nat) : List Highlight → List Char → List Char
  | [], text => text
  | h :: hs, text => text.take (h.span.start - place) ++
      (h.text ++ rewritten h.span.stop hs (text.drop (h.span.stop - place)))

theorem rewritten_cons (c : Char) (h : ∀ l ∈ ls, n + 1 ≤ l.span.start) :
    rewritten n (ls.map (·.highlight)) (c :: text) =
      c :: rewritten (n + 1) (ls.map (·.highlight)) text := by
  cases ls with
  | nil => rfl
  | cons l ls =>
    obtain ⟨k, hk⟩ := Nat.exists_eq_add_of_le (h l List.mem_cons_self)
    have hstart : l.span.start - n = k + 1 := by omega
    have hstart' : l.span.start - (n + 1) = k := by omega
    have hstop : l.span.stop - n = k + l.span.length + 1 := by
      rw [Span.stop]
      omega
    have hstop' : l.span.stop - (n + 1) = k + l.span.length := by
      rw [Span.stop]
      omega
    simp only [List.map_cons, rewritten, Lexeme.highlight, hstart, hstart', hstop, hstop',
      List.take_succ_cons, List.drop_succ_cons, List.cons_append]

theorem rewritten_piece {scope : String} {hs : List Highlight} {new : List Char} :
    rewritten n (⟨⟨n, piece.length⟩, scope, new⟩ :: hs) (piece ++ rest) =
      new ++ rewritten (n + piece.length) hs rest := by
  rw [rewritten, Span.stop]
  simp only [Nat.sub_self, List.take_zero, List.nil_append, Nat.add_sub_cancel_left, List.drop_left]

/-- Highlights have at least as many characters as they cover. So a text that comes out the same has
them all the same. -/
theorem Layout.rewritten (h : Layout n text ls) :
    text.length ≤ (Notation.rewritten n (ls.map (·.highlight)) text).length ∧
      (Notation.rewritten n (ls.map (·.highlight)) text = text ↔
        ∀ l ∈ ls, l.token.text = (text.drop (l.span.start - n)).take l.span.length) := by
  induction h with
  | nil => exact ⟨Nat.le_refl _, iff_of_true rfl nofun⟩
  | @blank n c cs ls hb h ih =>
    obtain ⟨hlength, hiff⟩ := ih
    rw [rewritten_cons c fun l hl => h.start_le hl, List.length_cons, List.length_cons,
      List.cons_inj_right, hiff]
    refine ⟨Nat.succ_le_succ hlength, forall₂_congr fun l hl => ?_⟩
    have := h.start_le hl
    have hstart : l.span.start - n = l.span.start - (n + 1) + 1 := by omega
    rw [hstart, List.drop_succ_cons]
  | @token n piece rest token ls hs h ih =>
    obtain ⟨hlength, hiff⟩ := ih
    have hshow := hs.length_le
    rw [List.map_cons, Lexeme.highlight, rewritten_piece, List.length_append, List.length_append]
    refine ⟨Nat.add_le_add hshow hlength, ?_⟩
    have hparts : token.text ++ Notation.rewritten (n + piece.length) (ls.map (·.highlight)) rest =
        piece ++ rest ↔ token.text = piece ∧
          Notation.rewritten (n + piece.length) (ls.map (·.highlight)) rest = rest := by
      constructor
      · intro heq
        have hwhole := congrArg List.length heq
        rw [List.length_append, List.length_append] at hwhole
        exact List.append_inj heq (by omega)
      · rintro ⟨ht, hr⟩
        rw [ht, hr]
    rw [hparts, hiff, List.forall_mem_cons]
    dsimp only
    rw [Nat.sub_self, List.drop_zero, List.take_left]
    refine and_congr_right fun _ => forall₂_congr fun l hl => ?_
    obtain ⟨k, hk⟩ := Nat.exists_eq_add_of_le (h.start_le hl)
    have hstart : l.span.start - n = piece.length + k := by omega
    have hstart' : l.span.start - (n + piece.length) = k := by omega
    rw [hstart, hstart', List.drop_length_add_append]

/-- A highlight of a token: at its place, of its class, and with the usual sign. In the text the
token has one of its signs, and only with the usual one does the highlight show what it covers. -/
structure Shows (text : List Char) (l : Lexeme) (h : Highlight) : Prop where
  span : h.span = l.span
  scope : h.scope = l.token.scope
  usual : h.text = l.token.usualSign ++ l.token.bare
  sign : ∃ sign ∈ l.token.signs, h.span.slice text = sign ++ l.token.bare ∧
    (h.text = h.span.slice text ↔ sign = l.token.usualSign)

theorem shows_highlight (h : tokenize 0 text = .ok ls) (hl : l ∈ ls) :
    Shows text l l.highlight := by
  obtain ⟨after, hs, -⟩ := (tokenize_eq_ok_iff.1 h).exists_slice hl
  obtain ⟨sign, hsign, hslice⟩ := hs.exists_sign
  refine ⟨rfl, rfl, l.token.text_eq, sign, hsign, hslice, ?_⟩
  change l.token.text = l.span.slice text ↔ _
  rw [hslice, l.token.text_eq, List.append_left_inj, eq_comm]

/-- The highlights are the tokens in order, each in its usual spelling. Written instead of what they
cover they give back the text just when each of them is what it covers. -/
theorem highlights_respell (h : tokenize 0 text = .ok ls) :
    List.Forall₂ (Shows text) ls (highlights text) ∧
      (rewritten 0 (highlights text) text = text ↔
        ∀ hl ∈ highlights text, hl.text = hl.span.slice text) := by
  rw [highlights_eq h]
  constructor
  · rw [List.forall₂_map_right_iff, List.forall₂_same]
    exact fun l hl => shows_highlight h hl
  · rw [List.forall_mem_map]
    exact (tokenize_eq_ok_iff.1 h).rewritten.2

/-- An octal numeral gets the nought that the text leaves out, and the text does not come back. -/
theorem highlights_respell_of_three : ∃ ls, tokenize 0 "o4|0x9".toList = .ok ls ∧
    List.Forall₂ (Shows "o4|0x9".toList) ls (highlights "o4|0x9".toList) ∧
    rewritten 0 (highlights "o4|0x9".toList) "o4|0x9".toList = "0o4|0x9".toList ∧
    ¬ ∀ hl ∈ highlights "o4|0x9".toList, hl.text = hl.span.slice "o4|0x9".toList := by
  have hcut : (tokenize 0 "o4|0x9".toList).isOk = true := by decide +kernel
  have hnew : rewritten 0 (highlights "o4|0x9".toList) "o4|0x9".toList = "0o4|0x9".toList := by
    decide +kernel
  cases ht : tokenize 0 "o4|0x9".toList with
  | error err =>
    rw [ht] at hcut
    cases hcut
  | ok ls =>
    obtain ⟨hshows, hiff⟩ := highlights_respell ht
    refine ⟨ls, rfl, hshows, hnew, ?_⟩
    intro hall
    have hsame := hnew.symm.trans (hiff.2 hall)
    revert hsame
    decide

/-- A highlight need not be what it covers. -/
theorem bare_octal_not_slice : (tokenize 0 "o44".toList).isOk = true ∧
    (∃ h ∈ highlights "o44".toList, h.text ≠ h.span.slice "o44".toList) ∧
    rewritten 0 (highlights "o44".toList) "o44".toList ≠ "o44".toList := by
  have hcut : (tokenize 0 "o44".toList).isOk = true := by decide +kernel
  have hlight : highlights "o44".toList = [⟨⟨0, 3⟩, "constant.codec", "0o44".toList⟩] := by
    decide +kernel
  rw [hlight]
  exact ⟨hcut, ⟨_, List.mem_singleton_self _, by decide⟩, by decide⟩

end Rhythm.Notation
