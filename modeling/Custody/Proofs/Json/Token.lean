import Custody.Json.Token
import Custody.Json.Writer
import Custody.Proofs.Bytes
import Custody.Proofs.Decimal.Digits

/-!
Tokens are read back as they are written. A bare word is complete only at the mark that follows it, so what
is said of a row of bytes allows for a word that is still open at its end.
-/

namespace Custody.Json

namespace Numeral

theorem render_ofNat (n : Nat) : (ofNat n).render = Bytes.ofNat n := by
  simp [render, ofNat]

theorem ofBytes?_ofNat (n : Nat) : ofBytes? (Bytes.ofNat n) = some (ofNat n) := by
  obtain ⟨d, more, made, first⟩ := Digit.ofNat_eq_cons n
  have digits := @Digit.split_bytes (Digit.ofNat n) [] (by simp)
  have value := Digit.number_ofNat n
  rw [List.append_nil, made] at digits
  rw [made] at value
  have unsigned : splitSign (Digit.bytes (d :: more)) = (false, Digit.bytes (d :: more)) := by
    have digit : ∀ d : Digit, d.byte ≠ 45 := by decide
    simp only [splitSign, Digit.bytes, List.map_cons]
    split
    · rename_i minus
      exact absurd (List.cons.inj minus).1 (digit d)
    · rfl
  have whole : ¬(d = .zero ∧ more ≠ []) := fun h => h.2 (first h.1)
  simp only [Bytes.ofNat, made, ofBytes?, unsigned, digits, Option.bind_eq_bind]
  rw [if_neg whole, value]
  rfl

end Numeral

namespace Token

namespace Lexer

/-- The tokens made so far, latest first, once a bare word that is still open has been closed. -/
def settled? (l : Lexer) : Option (List Token) :=
  match l.mode with
  | .between => some l.made
  | .word read => (ofWord? read.reverse).map (· :: l.made)
  | _ => none

theorem finish_of_settled {l : Lexer} {made : List Token} (h : l.settled? = some made) :
    l.finish = some made.reverse := by
  obtain ⟨mode, before⟩ := l
  cases mode with
  | between => cases h; rfl
  | word read =>
    obtain ⟨t, word, rfl⟩ := Option.map_eq_some_iff.mp h
    simp only [finish, word]
    rfl
  | string | escape | unit => cases h

end Lexer

def IsMark (c : UInt8) (t : Token) : Prop :=
  isBlank c = false ∧ c ≠ 34 ∧ isWordByte c = false ∧ ofMark? c = some t

theorem fresh_mark {c : UInt8} {t : Token} (mark : IsMark c t) (made : List Token) :
    Lexer.fresh made c = some ⟨.between, t :: made⟩ := by
  obtain ⟨blank, quote, word, is⟩ := mark
  simp only [Lexer.fresh, blank, word, is, quote, if_false, Bool.false_eq_true]
  rfl

theorem step_mark {c : UInt8} {t : Token} (mark : IsMark c t) {l : Lexer} {made : List Token}
    (h : l.settled? = some made) : l.step c = some ⟨.between, t :: made⟩ := by
  obtain ⟨mode, before⟩ := l
  cases mode with
  | between =>
    cases h
    exact fresh_mark mark before
  | word read =>
    obtain ⟨w, word, rfl⟩ := Option.map_eq_some_iff.mp h
    simp only [Lexer.step, mark.2.2.1, word, Bool.false_eq_true, if_false]
    exact fresh_mark mark _
  | string | escape | unit => cases h

def Lexes (b : Bytes) (ts : List Token) : Prop :=
  ∀ made, ∃ l, b.foldlM Lexer.step ⟨.between, made⟩ = some l ∧ l.settled? = some (ts.reverse ++ made)

theorem Lexes.ofBytes? {b : Bytes} {ts : List Token} (h : Lexes b ts) : ofBytes? b = some ts := by
  obtain ⟨l, run, settled⟩ := h []
  rw [Token.ofBytes?, run, Option.bind_some, Lexer.finish_of_settled settled, List.append_nil,
    List.reverse_reverse]

theorem Lexes.nil : Lexes [] [] := fun made => ⟨⟨.between, made⟩, rfl, rfl⟩

theorem Lexes.mark {b d : Bytes} {ts us : List Token} {c : UInt8} {t : Token} (front : Lexes b ts)
    (mark : IsMark c t) (back : Lexes d us) : Lexes (b ++ c :: d) (ts ++ t :: us) := by
  intro made
  obtain ⟨l, run, settled⟩ := front made
  obtain ⟨k, rest, last⟩ := back (t :: (ts.reverse ++ made))
  refine ⟨k, ?_, by rw [last]; simp⟩
  rw [List.foldlM_append, run, Option.bind_eq_bind, Option.bind_some, List.foldlM_cons,
    step_mark mark settled]
  exact rest

theorem foldlM_word {w : Bytes} (word : ∀ c ∈ w, isWordByte c = true) (read : Bytes) (made : List Token) :
    w.foldlM Lexer.step ⟨.word read, made⟩ = some ⟨.word (w.reverse ++ read), made⟩ := by
  induction w generalizing read with
  | nil => rfl
  | cons c w ih =>
    have first := word c List.mem_cons_self
    have rest := ih (fun d member => word d (List.mem_cons_of_mem c member)) (c :: read)
    have step : Lexer.step ⟨.word read, made⟩ c = some ⟨.word (c :: read), made⟩ := if_pos first
    rw [List.foldlM_cons, step, Option.bind_eq_bind, Option.bind_some, rest]
    simp

theorem fresh_word {c : UInt8} (word : isWordByte c = true) (made : List Token) :
    Lexer.fresh made c = some ⟨.word [c], made⟩ := by
  have blank : isBlank c = false := by
    refine Bool.eq_false_iff.mpr fun blank => ?_
    simp only [isBlank, Bool.or_eq_true, beq_iff_eq] at blank
    rcases blank with ((rfl | rfl) | rfl) | rfl <;> exact absurd word (by decide)
  have quote : c ≠ 34 := by
    rintro rfl
    exact absurd word (by decide)
  simp only [Lexer.fresh, blank, quote, word, Bool.false_eq_true, if_false, if_true]

theorem Lexes.word {w : Bytes} {t : Token} (word : ∀ c ∈ w, isWordByte c = true)
    (is : ofWord? w = some t) : Lexes w [t] := by
  intro made
  cases w with
  | nil => cases is
  | cons c w =>
    have first := fresh_word (word c List.mem_cons_self) made
    have rest := foldlM_word (fun d member => word d (List.mem_cons_of_mem c member)) [c] made
    refine ⟨⟨.word (w.reverse ++ [c]), made⟩, ?_, ?_⟩
    · rw [List.foldlM_cons]
      change (Lexer.fresh made c >>= _) = _
      rw [first]
      exact rest
    · simp [Lexer.settled?, is]

theorem Lexes.null : Lexes [110, 117, 108, 108] [.null] := .word (List.all_eq_true.mp rfl) rfl

theorem Lexes.bool (b : Bool) : Lexes (render (.bool b)) [.bool b] := by
  cases b <;> exact .word (List.all_eq_true.mp rfl) rfl

theorem Lexes.nat (n : Nat) : Lexes (Bytes.ofNat n) [.number (.ofNat n)] := by
  apply Lexes.word
  · have digit : ∀ d : Digit, isWordByte d.byte = true := by decide
    intro c member
    obtain ⟨d, -, rfl⟩ := List.mem_map.mp member
    exact digit d
  · obtain ⟨d, more, made, -⟩ := Digit.ofNat_eq_cons n
    have digit : ∀ d : Digit, d.byte ≠ 110 ∧ d.byte ≠ 116 ∧ d.byte ≠ 102 := by decide
    obtain ⟨n₁, n₂, n₃⟩ := digit d
    have numeral := Numeral.ofBytes?_ofNat n
    simp only [Bytes.ofNat, made, Digit.bytes, List.map_cons] at numeral ⊢
    simp only [ofWord?, List.cons.injEq, n₁, n₂, n₃, false_and, if_false, numeral]
    rfl

/-- A part of a string stands for a byte if it gives that byte wherever it comes. -/
def Stands (p : Piece) (c : UInt8) : Prop :=
  ∀ rest done, assemble (p :: rest) done = assemble rest (c :: done)

theorem stands_unit {c : UInt8} (h : c < 32) : Stands (.unit c.toNat) c := by
  have small : c.toNat < 32 := UInt8.lt_iff_toNat_lt.mp h
  have form : String.utf8EncodeChar (Char.ofNat c.toNat) = [c] := by
    have code : (Char.ofNat c.toNat).val.toNat = c.toNat := Bytes.toNat_ofNat (.inl (by omega))
    simp only [String.utf8EncodeChar, code]
    rw [if_pos (by omega), UInt8.ofNat_toNat]
  intro rest done
  conv_lhs => unfold assemble
  rw [if_neg (by omega), if_neg (by omega), form]
  rfl

theorem foldlM_escape (c : UInt8) (read : List Piece) (made : List Token) :
    ∃ p, Stands p c ∧
      (escape c).foldlM Lexer.step ⟨.string read, made⟩ = some ⟨.string (p :: read), made⟩ := by
  unfold escape
  split_ifs with quote back bs ff lf cr tab control
  iterate 7
    subst c
    exact ⟨.byte _, fun _ _ => rfl, rfl⟩
  · refine ⟨.unit c.toNat, stands_unit control, ?_⟩
    have hex : ∀ n < 32, hexValue? (hexByte (n / 16)) = some (n / 16) ∧
        hexValue? (hexByte (n % 16)) = some (n % 16) := by decide
    obtain ⟨high, low⟩ := hex c.toNat (UInt8.lt_iff_toNat_lt.mp control)
    have value : (0 * 16 + c.toNat / 16) * 16 + c.toNat % 16 = c.toNat := by omega
    have zero : hexValue? 48 = some 0 := rfl
    simp [Lexer.step, high, low, zero]
    omega
  · exact ⟨.byte c, fun _ _ => rfl, by simp [Lexer.step, quote, back, control]⟩

theorem foldlM_escaped (b : Bytes) (read : List Piece) (made : List Token) :
    ∃ ps, (∀ done, assemble (ps ++ read) done = assemble read (b ++ done)) ∧
      (b.flatMap escape).foldlM Lexer.step ⟨.string read, made⟩ = some ⟨.string (ps ++ read), made⟩ := by
  induction b generalizing read with
  | nil => exact ⟨[], fun _ => rfl, rfl⟩
  | cons c b ih =>
    obtain ⟨p, stands, first⟩ := foldlM_escape c read made
    obtain ⟨ps, rest, run⟩ := ih (p :: read)
    refine ⟨ps ++ [p], fun done => ?_, ?_⟩
    · rw [List.append_assoc, List.singleton_append, rest, stands]
      rfl
    · rw [List.flatMap_cons, List.foldlM_append, first, Option.bind_eq_bind, Option.bind_some, run]
      simp

theorem Lexes.text (s : String) : Lexes (renderText s) [.string (some s)] := by
  intro made
  obtain ⟨ps, assembled, run⟩ := foldlM_escaped (Bytes.ofText s) [] made
  have is : text? ps = some s := by
    have all := assembled []
    rw [List.append_nil, List.append_nil] at all
    rw [text?, all, assemble, Option.bind_some, Bytes.text?_ofText]
  refine ⟨⟨.between, .string (some s) :: made⟩, ?_, rfl⟩
  have last : Lexer.step ⟨.string ps, made⟩ 34 = some ⟨.between, .string (some s) :: made⟩ := by
    rw [← is]
    rfl
  rw [renderText, List.cons_append, List.foldlM_cons]
  change List.foldlM Lexer.step ⟨.string [], made⟩ _ = _
  rw [List.foldlM_append, run, Option.bind_eq_bind, Option.bind_some, List.append_nil, List.foldlM_cons,
    last]
  rfl

end Token

end Custody.Json
