import Ripple.Proofs.MapM
import Ripple.Proofs.Text.Split
import Ripple.Settings.Key
import Mathlib.Data.List.Induction
import Mathlib.Data.List.Nodup

/-!
# What a setting shows after it has been set

`SettingKey.canonical` turns the text that a setting is set to into the text that it shows
afterwards: a number loses its plus sign and leading zeros, a list of analyzers has their names,
each once, and every other text stays as it is. Other settings show what they did before
(`value_of_assign`).
-/

namespace Ripple

open Text

/-! ## Plain numbers -/

namespace Text

/-- The text without a plus sign at its start. -/
def unsigned (text : List Char) : List Char :=
  match text with
  | '+' :: rest => rest
  | _ => text

/-- The digits of a number without a plus sign and leading zeros; of a row of zeros one stays. -/
def plainDigits (text : List Char) : List Char :=
  match (unsigned text).dropWhile (· == '0') with
  | [] => ['0']
  | plain => plain

theorem digitChar_of_digitValue? {c : Char} {d : Nat} (h : digitValue? c = some d) :
    d < 10 ∧ digitChar d = c := by
  unfold digitValue? at h
  split at h
  · next hc =>
    obtain rfl := Option.some.inj h
    have hlow : '0'.toNat ≤ c.toNat := hc.1
    have hhigh : c.toNat ≤ '9'.toNat := hc.2
    have hnine : '9'.toNat = '0'.toNat + 9 := rfl
    refine ⟨by omega, ?_⟩
    rw [digitChar, if_pos (by omega), Nat.add_sub_cancel' hlow, Char.ofNat_toNat]
  · cases h

/-- Without leading zeros the digits of a number are those it is written with; of zero none are
left. -/
theorem dropWhile_zero_of_digitsValue? {digits : List Char} {n : Nat}
    (h : digitsValue? 0 digits = some n) :
    digits.dropWhile (· == '0') = if n = 0 then [] else decimal n := by
  induction digits using List.reverseRecOn generalizing n with
  | nil =>
    obtain rfl : 0 = n := Option.some.inj h
    rfl
  | append_singleton digits c ih =>
    rw [digitsValue?_append, Option.bind_eq_some_iff] at h
    obtain ⟨m, hm, h⟩ := h
    have hdigit : ∃ d, digitValue? c = some d ∧ 10 * m + d = n := by
      cases hc : digitValue? c with
      | none => simp [digitsValue?, hc] at h
      | some d => exact ⟨d, rfl, by simpa [digitsValue?, hc] using h⟩
    obtain ⟨d, hd, rfl⟩ := hdigit
    obtain ⟨hlt, hchar⟩ := digitChar_of_digitValue? hd
    rw [List.dropWhile_append, ih hm]
    by_cases hm0 : m = 0
    · -- only zeros so far
      by_cases hd0 : d = 0
      · have hc : c = '0' := by
          rw [← hchar, hd0]
          rfl
        simp [hm0, hd0, hc]
      · have hc : c ≠ '0' := by
          rintro rfl
          exact hd0 (Option.some.inj hd).symm
        have hdecimal : decimal d = [c] := by rw [decimal, if_pos hlt, hchar]
        simp [hm0, hd0, hc, hdecimal]
    · have hne : ¬10 * m + d = 0 := by omega
      have hlarge : ¬10 * m + d < 10 := by omega
      have hdiv : (10 * m + d) / 10 = m := by omega
      have hmod : (10 * m + d) % 10 = d := by omega
      have hdecimal : decimal (10 * m + d) = decimal m ++ [c] := by
        rw [decimal, if_neg hlarge, hdiv, hmod, hchar]
      rw [if_neg hm0, if_neg hne, hdecimal, if_neg (by simp [decimal_ne_nil])]

/-- A number is written in base ten as the plain form of the digits it was read from. -/
theorem decimal_of_readNumber {bound n : Nat} {text : List Char}
    (h : readNumber bound text = some n) : decimal n = plainDigits text ∧ n < bound := by
  unfold readNumber at h
  change (if unsigned text = [] then none else _) = some n at h
  split at h
  · cases h
  split at h
  · next m hm =>
    have hm : digitsValue? 0 (unsigned text) = some m := hm
    split at h
    · next hbound =>
      obtain rfl := Option.some.inj h
      refine ⟨?_, hbound⟩
      rw [plainDigits, dropWhile_zero_of_digitsValue? hm]
      by_cases hm0 : m = 0
      · rw [if_pos hm0, hm0, decimal]
        rfl
      · rw [if_neg hm0]
        split
        · next hnil => exact absurd hnil (decimal_ne_nil m)
        · rfl
    · cases h
  · cases h

end Text

/-! ## Lists without repeats -/

theorem distinct_eq_eraseDups {α : Type} [DecidableEq α] (xs : List α) :
    distinct xs = xs.eraseDups := by
  induction xs using List.reverseRecOn with
  | nil => rfl
  | append_singleton xs x ih =>
    have hfold : distinct (xs ++ [x]) =
        if x ∈ distinct xs then distinct xs else distinct xs ++ [x] := by
      rw [distinct, List.foldl_append]
      rfl
    rw [hfold, ih, List.eraseDups_append]
    by_cases hx : x ∈ xs
    · simp [hx, List.removeAll]
    · simp [hx, List.removeAll, List.eraseDups_cons]

theorem nodup_distinct {α : Type} [DecidableEq α] (xs : List α) : (distinct xs).Nodup := by
  unfold distinct
  refine List.foldlRecOn xs _ List.nodup_nil fun seen hseen x _ => ?_
  split
  · exact hseen
  · next hnew =>
    rw [← List.concat_eq_append]
    exact hseen.concat hnew

/-! ## Canonical texts -/

/-- What a setting shows after it has been set to the text. -/
def SettingKey.canonical (text : String) : SettingKey → String
  | timeout | concurrentFiles => String.ofList (plainDigits text.toList)
  | analyzers =>
    let pieces := (text.toList.splitOn ',').filter (!isAllBlank ·)
    let named := pieces.filterMap fun piece => Analyzer.parse? (String.ofList piece)
    ",".intercalate (named.eraseDups.map (·.name))
  | stagingDirectory | command _ => text

namespace Settings

variable {s s' : Settings} {key other : SettingKey} {text : String}

theorem number_eq_ok {n : UInt64} (h : number text = .ok n) :
    String.ofList (decimal n.toNat) = String.ofList (plainDigits text.toList) := by
  unfold number at h
  split at h
  · next m hread =>
    obtain rfl := Except.ok.inj h
    obtain ⟨hplain, hbound⟩ := decimal_of_readNumber hread
    rw [UInt64.toNat_ofNat_of_lt' hbound, hplain]
  · cases h

theorem analyzer_eq_ok {piece : List Char} {a : Analyzer} (h : analyzer piece = .ok a) :
    Analyzer.parse? (String.ofList piece) = some a := by
  unfold analyzer at h
  dsimp only at h
  split at h
  · next found hparse =>
    rw [hparse, Except.ok.inj h]
  · cases h

theorem analyzerList_eq_ok {list : List Analyzer} (h : analyzerList text = .ok list) :
    ",".intercalate (list.map (·.name)) = SettingKey.canonical text .analyzers := by
  obtain ⟨named, hmap, rfl⟩ := map_eq_ok_iff.mp h
  have hnamed (pieces : List (List Char)) (found : List Analyzer)
      (hall : List.Forall₂ (fun piece a => analyzer piece = .ok a) pieces found) :
      pieces.filterMap (fun piece => Analyzer.parse? (String.ofList piece)) = found := by
    induction hall with
    | nil => rfl
    | cons hpiece _ ih => rw [List.filterMap_cons, analyzer_eq_ok hpiece, ih]
  rw [splitWhere_eq_splitOn] at hmap
  rw [distinct_eq_eraseDups, SettingKey.canonical, hnamed _ _ (mapM_eq_ok_iff.mp hmap)]

/-- **A setting shows the canonical form of the text it is set to, and the others show what they did
before.** -/
theorem value_of_assign (h : s.assign key text = .ok s') :
    s'.value other = if other = key then key.canonical text else s.value other := by
  cases key with
  | timeout =>
    obtain ⟨n, hn, rfl⟩ := map_eq_ok_iff.mp h
    cases other <;> first | rfl | exact number_eq_ok hn
  | stagingDirectory =>
    obtain rfl := Except.ok.inj h
    cases other <;> rfl
  | concurrentFiles =>
    obtain ⟨n, hn, rfl⟩ := map_eq_ok_iff.mp h
    cases other <;> first | rfl | exact number_eq_ok hn
  | analyzers =>
    obtain ⟨list, hlist, rfl⟩ := map_eq_ok_iff.mp h
    cases other <;> first | rfl | exact analyzerList_eq_ok hlist
  | command analyzer =>
    obtain rfl := Except.ok.inj h
    cases other with
    | command analyzer' => cases analyzer <;> cases analyzer' <;> rfl
    | _ => cases analyzer <;> rfl

example : SettingKey.analyzers.canonical "clangtidy, ,CppCheck,clang-tidy" =
    "clang-tidy,cppcheck" := by decide +kernel

end Settings

end Ripple
