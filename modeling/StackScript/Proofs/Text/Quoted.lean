import Mathlib.Data.List.Nodup
import StackScript.Text.Quoted

/-!
# Quoting keeps texts apart

No two characters are written in the same way between two quotes, and each of them shows where it
ends. Texts that are quoted in the same way are therefore the same.
-/

namespace StackScript.Text

/-! ## Hexadecimal digits -/

theorem digitChar_inj : ∀ m < 16, ∀ n < 16, Nat.digitChar m = Nat.digitChar n → m = n := by decide

theorem digitChar_ne_closeBrace : ∀ n < 16, Nat.digitChar n ≠ '\x7d' := by decide

/-- A number is known by its hexadecimal digits. -/
theorem toDigits_inj {m n : Nat} (h : Nat.toDigits 16 m = Nat.toDigits 16 n) : m = n := by
  induction m using Nat.strongRecOn generalizing n with
  | ind m ih =>
      rw [@Nat.toDigits_eq_if 16 m (by decide), @Nat.toDigits_eq_if 16 n (by decide)] at h
      have hlast := digitChar_inj (m % 16) (Nat.mod_lt m (by decide)) (n % 16)
        (Nat.mod_lt n (by decide))
      by_cases hm : m < 16
      · by_cases hn : n < 16
        · rw [if_pos hm, if_pos hn] at h
          exact digitChar_inj m hm n hn (List.singleton_inj.mp h)
        · rw [if_pos hm, if_neg hn] at h
          have hlength := congrArg List.length h
          simp [Nat.toDigits_ne_nil] at hlength
      · by_cases hn : n < 16
        · rw [if_neg hm, if_pos hn] at h
          have hlength := congrArg List.length h
          simp [Nat.toDigits_ne_nil] at hlength
        · rw [if_neg hm, if_neg hn] at h
          obtain ⟨hfront, hdigit⟩ := List.append_inj' h rfl
          have hquotient := ih (m / 16) (by omega) hfront
          have hremainder := hlast (List.singleton_inj.mp hdigit)
          omega

theorem closeBrace_not_mem_toDigits (n : Nat) : '\x7d' ∉ Nat.toDigits 16 n := by
  induction n using Nat.strongRecOn with
  | ind n ih =>
      have hlast := digitChar_ne_closeBrace (n % 16) (Nat.mod_lt n (by decide))
      rw [Nat.toDigits_eq_if (by decide)]
      split
      case isTrue hlt => exact fun hm => digitChar_ne_closeBrace n hlt (List.mem_singleton.mp hm).symm
      case isFalse hge =>
          rw [List.mem_append, List.mem_singleton, not_or]
          exact ⟨ih (n / 16) (by omega), fun heq => hlast heq.symm⟩

/-- The digits of a number end in front of a brace. -/
theorem toDigits_append_inj {m n : Nat} {rest others : List Char}
    (h : Nat.toDigits 16 m ++ '\x7d' :: rest = Nat.toDigits 16 n ++ '\x7d' :: others) :
    m = n ∧ rest = others := by
  have htake : ∀ (n : Nat) (rest : List Char),
      (Nat.toDigits 16 n ++ '\x7d' :: rest).takeWhile (· != '\x7d') = Nat.toDigits 16 n := by
    intro n rest
    rw [List.takeWhile_append_of_pos]
    · simp
    · intro c hm
      exact bne_iff_ne.mpr fun heq => closeBrace_not_mem_toDigits n (heq ▸ hm)
  have hdigits : Nat.toDigits 16 m = Nat.toDigits 16 n := by
    rw [← htake m rest, h, htake]
  rw [hdigits] at h
  exact ⟨toDigits_inj hdigits, (List.cons.inj (List.append_cancel_left h)).2⟩

/-! ## Escapes -/

/-- The characters that have a short name behind a backslash between double quotes. -/
def named : List (Char × Char) :=
  [('\x00', '0'), ('\t', 't'), ('\r', 'r'), ('\n', 'n'), ('\\', '\\'), ('"', '"')]

/-- A character stands for itself, has a short name, or is written as its code point. -/
theorem escape_cases (c : Char) :
    (escape '"' c = [c] ∧ c ≠ '\\' ∧ c ≠ '"') ∨
      (∃ name, (c, name) ∈ named ∧ escape '"' c = ['\\', name]) ∨
      escape '"' c = codePointEscape c := by
  unfold escape
  split
  case isTrue h => exact .inr (.inl ⟨'0', by simp [named, h], rfl⟩)
  split
  case isTrue h => exact .inr (.inl ⟨'t', by simp [named, h], rfl⟩)
  split
  case isTrue h => exact .inr (.inl ⟨'r', by simp [named, h], rfl⟩)
  split
  case isTrue h => exact .inr (.inl ⟨'n', by simp [named, h], rfl⟩)
  split
  case isTrue h => exact .inr (.inl ⟨c, by rcases h with rfl | rfl <;> simp [named], rfl⟩)
  case isFalse h =>
      rw [not_or] at h
      split
      case isTrue => exact .inl ⟨rfl, h⟩
      case isFalse => exact .inr (.inr rfl)

/-- What is written for a character never starts like the end of the quoted text. -/
theorem escape_append_ne (c : Char) (rest others : List Char) :
    escape '"' c ++ rest ≠ '"' :: others := by
  obtain ⟨heq, -, hne⟩ | ⟨name, -, heq⟩ | heq := escape_cases c
  all_goals simp_all [codePointEscape]

/-- What is written for a character shows which one it is and where it ends. -/
theorem escape_append_inj {c d : Char} {rest others : List Char}
    (h : escape '"' c ++ rest = escape '"' d ++ others) : c = d ∧ rest = others := by
  have hnames : (named.map Prod.snd).Nodup := by decide
  have hcode : 'u' ∉ named.map Prod.snd := by decide
  obtain ⟨hc, hslash, -⟩ | ⟨name, hname, hc⟩ | hc := escape_cases c <;>
    obtain ⟨hd, hslash', -⟩ | ⟨name', hname', hd⟩ | hd := escape_cases d <;>
    simp only [hc, hd, codePointEscape, List.cons_append, List.nil_append, List.append_assoc,
      List.cons.injEq, true_and] at h
  · exact h
  · exact absurd h.1 hslash
  · exact absurd h.1 hslash
  · exact absurd h.1.symm hslash'
  · obtain ⟨rfl, hrest⟩ := h
    have hsame := List.inj_on_of_nodup_map hnames hname hname' rfl
    exact ⟨congrArg Prod.fst hsame, hrest⟩
  · exact absurd (h.1 ▸ List.mem_map_of_mem hname) hcode
  · exact absurd h.1.symm hslash'
  · exact absurd (h.1 ▸ List.mem_map_of_mem hname') hcode
  · exact (toDigits_append_inj h).imp_left Char.toNat_inj.mp

/-! ## Quoted texts -/

theorem flatMap_escape_inj {front back : List Char} {rest others : List Char}
    (h : front.flatMap (escape '"') ++ '"' :: rest = back.flatMap (escape '"') ++ '"' :: others) :
    front = back := by
  induction front generalizing back with
  | nil =>
      cases back with
      | nil => rfl
      | cons d back =>
          rw [List.flatMap_cons, List.append_assoc] at h
          exact absurd h.symm (escape_append_ne d _ _)
  | cons c front ih =>
      cases back with
      | nil =>
          rw [List.flatMap_cons, List.append_assoc] at h
          exact absurd h (escape_append_ne c _ _)
      | cons d back =>
          rw [List.flatMap_cons, List.flatMap_cons, List.append_assoc, List.append_assoc] at h
          obtain ⟨rfl, hrest⟩ := escape_append_inj h
          rw [ih hrest]

/-- Different texts are quoted differently. -/
theorem quote_inj {text other : String} (h : quote text = quote other) : text = other := by
  have hlists := congrArg String.toList h
  rw [toList_quote, toList_quote, List.cons.injEq] at hlists
  exact String.toList_inj.mp (flatMap_escape_inj hlists.2)

end StackScript.Text
