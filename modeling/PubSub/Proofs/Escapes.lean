import Mathlib.Data.Nat.Digits.Defs
import Mathlib.Tactic.IntervalCases
import PubSub.Json
import PubSub.Text.Quoted

/-! # Escapes can be read back

In quoted text and in documents a character may stand for itself or be written
as an escape. What a character is written as tells which one it is, and no
character is written with a quote in front; so a quoted text tells what it
quotes.
-/

namespace PubSub

namespace Hex

def read (s : List Char) : Nat := s.foldl (fun n c => n * 16 + (value? c).getD 0) 0

theorem value?_digitChar {n : Nat} (h : n < 16) : value? n.digitChar = some n := by
  interval_cases n <;> rfl

theorem read_toDigits (n : Nat) : read (Nat.toDigits 16 n) = n := by
  induction n using Nat.strong_induction_on with
  | h n ih =>
    rw [Nat.toDigits_eq_if (by decide)]
    split
    · next h => simp [read, value?_digitChar h]
    · next h =>
      have hd : read (Nat.toDigits 16 (n / 16)) = n / 16 :=
        ih _ (Nat.div_lt_self (by omega) (by decide))
      have hm : value? (n % 16).digitChar = some (n % 16) :=
        value?_digitChar (Nat.mod_lt _ (by decide))
      rw [read, List.foldl_append, ← read, hd, List.foldl_cons, List.foldl_nil, hm,
        Option.getD_some]
      exact Nat.div_add_mod' n 16

theorem toList_ofNat (n : Nat) : (ofNat n).toList = Nat.toDigits 16 n := String.toList_ofList

theorem isSome_value?_of_mem {n : Nat} {c : Char} (h : c ∈ Nat.toDigits 16 n) :
    (value? c).isSome := by
  induction n using Nat.strong_induction_on with
  | h n ih =>
    rw [Nat.toDigits_eq_if (by decide)] at h
    split at h
    · next hn =>
      obtain rfl := List.mem_singleton.mp h
      rw [value?_digitChar hn]
      rfl
    · next hn =>
      rcases List.mem_append.mp h with h | h
      · exact ih _ (Nat.div_lt_self (by omega) (by decide)) h
      · obtain rfl := List.mem_singleton.mp h
        rw [value?_digitChar (Nat.mod_lt _ (by decide))]
        rfl

end Hex

/-- What a text is written as can be read back character by character, up to a quote. -/
structure Readable (code : Char → List Char) where
  /-- The character that a written text begins with. -/
  first? : List Char → Option Char
  first : ∀ c rest, first? (code c ++ rest) = some c
  quote : ∀ rest, first? ('"' :: rest) = none

/-- Two texts that are written alike up to a quote are the same. -/
theorem Readable.inj {code : Char → List Char} (hc : Readable code) {s t r r' : List Char}
    (h : s.flatMap code ++ '"' :: r = t.flatMap code ++ '"' :: r') : s = t ∧ r = r' := by
  induction s generalizing t with
  | nil =>
    cases t with
    | nil => exact ⟨rfl, (List.cons.inj h).2⟩
    | cons d t =>
      have hq := congrArg hc.first? h
      rw [List.flatMap_cons, List.append_assoc, hc.first] at hq
      exact absurd hq (by simp [hc.quote])
  | cons c s ih =>
    cases t with
    | nil =>
      have hq := congrArg hc.first? h
      rw [List.flatMap_cons, List.append_assoc, hc.first] at hq
      exact absurd hq (by simp [hc.quote])
    | cons d t =>
      rw [List.flatMap_cons, List.append_assoc, List.flatMap_cons, List.append_assoc] at h
      have hf := congrArg hc.first? h
      rw [hc.first, hc.first, Option.some.injEq] at hf
      subst hf
      obtain ⟨rfl, hr⟩ := ih (List.append_cancel_left h)
      exact ⟨rfl, hr⟩

theorem toList_foldl_append (code : Char → String) (s out : String) :
    (s.foldl (fun out c => out ++ code c) out).toList =
      out.toList ++ s.toList.flatMap fun c => (code c).toList := by
  rw [String.foldl_eq_foldl_toList]
  induction s.toList generalizing out with
  | nil => simp
  | cons c cs ih => simp [ih]

namespace Quoted

def first? : List Char → Option Char
  | '\\' :: '0' :: _ => some '\x00'
  | '\\' :: 't' :: _ => some '\t'
  | '\\' :: 'r' :: _ => some '\r'
  | '\\' :: 'n' :: _ => some '\n'
  | '\\' :: 'u' :: '\x7b' :: rest => some (Char.ofNat (Hex.read (rest.takeWhile (· != '\x7d'))))
  | '\\' :: c :: _ => some c
  | '"' :: _ => none
  | c :: _ => some c
  | [] => none

theorem first?_escape (c : Char) (rest : List Char) :
    first? ((escape c).toList ++ rest) = some c := by
  unfold escape
  split
  · rfl
  · rfl
  · rfl
  · rfl
  · rfl
  · rfl
  · next h0 ht hr hn hq hb =>
    have hself : first? (c :: rest) = some c := by
      unfold first?
      split <;> simp_all
    split
    · simpa using hself
    · split
      · have hd : ∀ d ∈ Nat.toDigits 16 c.toNat, (d != '\x7d') = true := by
          intro d h
          rw [bne_iff_ne]
          rintro rfl
          exact absurd (Hex.isSome_value?_of_mem h) (by decide)
        simp [first?, Hex.toList_ofNat, List.takeWhile_append_of_pos hd,
          Hex.read_toDigits c.toNat]
      · simpa using hself

def readable : Readable fun c => (escape c).toList :=
  ⟨first?, first?_escape, fun _ => rfl⟩

theorem text_inj {s t : String} (h : text s = text t) : s = t := by
  have hl := congrArg String.toList h
  simp only [text, String.toList_append, toList_foldl_append, List.append_assoc] at hl
  exact String.toList_inj.mp (readable.inj (List.append_cancel_left hl)).1

end Quoted

namespace Json

def first? : List Char → Option Char
  | '\\' :: 'n' :: _ => some '\n'
  | '\\' :: 'r' :: _ => some '\r'
  | '\\' :: 't' :: _ => some '\t'
  | '\\' :: 'b' :: _ => some '\x08'
  | '\\' :: 'f' :: _ => some '\x0c'
  | '\\' :: 'u' :: rest => some (Char.ofNat (Hex.read (rest.take 4)))
  | '\\' :: c :: _ => some c
  | '"' :: _ => none
  | c :: _ => some c
  | [] => none

theorem first?_escape (c : Char) (rest : List Char) :
    first? ((escape c).toList ++ rest) = some c := by
  unfold escape
  split
  · rfl
  · rfl
  · rfl
  · rfl
  · rfl
  · rfl
  · rfl
  · next hq hb hn hr ht hbs hff =>
    split
    · next hlow =>
      have hcode : first? (("\\u" ++ Hex.padded 4 c.toNat).toList ++ rest) =
          some (Char.ofNat c.toNat) := by
        generalize c.toNat = n at hlow
        interval_cases n <;> rfl
      rw [hcode, Char.ofNat_toNat]
    · have hself : first? (c :: rest) = some c := by
        unfold first?
        split <;> simp_all
      simpa using hself

def readable : Readable fun c => (escape c).toList :=
  ⟨first?, first?_escape, fun _ => rfl⟩

/-- Whatever follows, a quoted text in a document tells what it quotes. -/
theorem quote_append_inj {s t r r' : String} (h : quote s ++ r = quote t ++ r') :
    s = t ∧ r = r' := by
  have hl := congrArg String.toList h
  simp only [quote, String.toList_append, toList_foldl_append, List.append_assoc] at hl
  obtain ⟨hs, hr⟩ := readable.inj (List.append_cancel_left hl)
  exact ⟨String.toList_inj.mp hs, String.toList_inj.mp hr⟩

end Json

end PubSub
