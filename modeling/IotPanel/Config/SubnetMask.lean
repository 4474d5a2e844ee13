import IotPanel.Js.Number
import IotPanel.Lib.Bits
import IotPanel.Lib.Text

/-!
# The validator of subnet masks

`IsSubnetMask` reads the octets one by one with `parseInt` and lets the next one be no greater
than the last.
-/

namespace IotPanel.Config

open JsVal (parseInt natOfDigits)

def validOctets : List ℤ := [0, 128, 192, 224, 240, 248, 252, 254, 255]

/-- The loop over the parts. -/
def octetsDecrease (previous : ℤ) : List String → Bool
  | [] => true
  | part :: parts =>
    match parseInt part with
    | none => false
    | some num =>
      validOctets.contains num && !decide (num > previous) && octetsDecrease num parts

/-- `validate` of `IsSubnetMask`. -/
def isSubnetMask : JsVal → Bool
  | some (.str value) =>
    let parts := Text.split value '.'
    parts.length = 4 && octetsDecrease 255 parts
  | _ => false

/-! ### What a subnet mask is -/

/-- A text of digits; only with `zeros` may it begin with a zero that it does not need. -/
def Plain (zeros : Bool) (part : String) : Prop :=
  part ≠ "" ∧ (∀ c ∈ part.toList, c.isDigit = true) ∧
    (zeros = true ∨ part = "0" ∨ part.toList.head? ≠ some '0')

/-- The part is the plain decimal number `n`. -/
def Writes (zeros : Bool) (part : String) (n : ℕ) : Prop :=
  Plain zeros part ∧ natOfDigits 10 part.toList = some n

/-- Four plain octets whose bits are a run of ones and then a run of zeros. -/
def IsMask (zeros : Bool) (s : String) : Prop :=
  ∃ octets : List ℕ, octets.length = 4 ∧ List.Forall₂ (Writes zeros) (Text.split s '.') octets ∧
    (∀ n ∈ octets, n < 256) ∧
    ∃ m n, octets.flatMap Bits.ofOctet = List.replicate m true ++ List.replicate n false

/-- The leading integers of four parts are valid octets that do not increase. -/
def ReadsOctets (s : String) (octets : List ℤ) : Prop :=
  octets.length = 4 ∧ (Text.split s '.').map parseInt = octets.map some ∧
    (∀ n ∈ octets, n ∈ validOctets) ∧ octets.Pairwise (· ≥ ·)

/-- Octets are read that are not those of a mask: a part holds more than its number, or an octet
that is not zero follows one that is not all ones. -/
def Misread (zeros : Bool) (s : String) : Prop :=
  ∃ octets, ReadsOctets s octets ∧
    ((∃ part ∈ Text.split s '.', ¬ Plain zeros part) ∨
      ¬ octets.Pairwise fun m n => m = 255 ∨ n = 0)

variable {zeros : Bool} {s part : String} {parts : List String} {previous : ℤ} {octets : List ℤ}

/-! ### The loop -/

theorem octetsDecrease_iff :
    octetsDecrease previous parts = true ↔
      ∃ octets : List ℤ, parts.map parseInt = octets.map some ∧ (∀ n ∈ octets, n ∈ validOctets) ∧
        (previous :: octets).Pairwise (· ≥ ·) := by
  induction parts generalizing previous with
  | nil => exact ⟨fun _ => ⟨[], by simp⟩, fun _ => rfl⟩
  | cons part parts ih =>
    unfold octetsDecrease
    cases hread : parseInt part with
    | none =>
      refine ⟨fun h => (nomatch h), ?_⟩
      rintro ⟨_ | ⟨n, octets⟩, hmap, -⟩ <;> simp [hread] at hmap
    | some num =>
      simp only [Bool.and_eq_true, List.contains_iff_mem, Bool.not_eq_true', decide_eq_false_iff_not,
        not_lt, gt_iff_lt, ih]
      constructor
      · rintro ⟨⟨hvalid, hle⟩, octets, hmap, hall, hsorted⟩
        refine ⟨num :: octets, by simp [hread, hmap], by simpa using ⟨hvalid, hall⟩, ?_⟩
        refine List.pairwise_cons.mpr ⟨?_, hsorted⟩
        -- what is below the last octet read is below all that were read before
        intro n hn
        obtain rfl | hn := List.mem_cons.mp hn
        · exact hle
        · exact le_trans ((List.pairwise_cons.mp hsorted).1 n hn) hle
      · rintro ⟨_ | ⟨n, octets⟩, hmap, hall, hsorted⟩
        · simp at hmap
        · simp only [List.map_cons, hread, List.cons.injEq, Option.some.injEq] at hmap
          obtain ⟨rfl, hmap⟩ := hmap
          obtain ⟨hle, htail⟩ := List.pairwise_cons.mp hsorted
          exact ⟨⟨hall num List.mem_cons_self, hle num List.mem_cons_self⟩, octets, hmap,
            fun n hn => hall n (List.mem_cons_of_mem _ hn), htail⟩

theorem le_of_mem_validOctets {n : ℤ} (h : n ∈ validOctets) : 0 ≤ n ∧ n ≤ 255 := by
  simp only [validOctets, List.mem_cons, List.not_mem_nil, or_false] at h
  omega

theorem isSubnetMask_iff : isSubnetMask (some (.str s)) = true ↔ ∃ octets, ReadsOctets s octets := by
  simp only [isSubnetMask, Bool.and_eq_true, decide_eq_true_eq, octetsDecrease_iff]
  constructor
  · rintro ⟨hlength, octets, hmap, hall, hsorted⟩
    have hsame := congrArg List.length hmap
    rw [List.length_map, List.length_map, hlength] at hsame
    exact ⟨octets, hsame.symm, hmap, hall, (List.pairwise_cons.mp hsorted).2⟩
  · rintro ⟨octets, hlength, hmap, hall, hsorted⟩
    have hsame := congrArg List.length hmap
    rw [List.length_map, List.length_map, hlength] at hsame
    refine ⟨hsame, octets, hmap, hall, List.pairwise_cons.mpr ⟨fun n hn => ?_, hsorted⟩⟩
    exact (le_of_mem_validOctets (hall n hn)).2

/-! ### Parts that are plain numbers -/

theorem exists_natOfDigits (hne : part ≠ "") (h : ∀ c ∈ part.toList, c.isDigit = true) :
    ∃ n, natOfDigits 10 part.toList = some n := by
  have hdigits : ∀ c ∈ part.toList, JsVal.digitValue c < 10 := by
    intro c hc
    have hc' := h c hc
    simp only [Char.isDigit, Bool.and_eq_true, decide_eq_true_eq, ge_iff_le] at hc'
    have hhigh : c.toNat ≤ 57 := hc'.2
    rw [JsVal.digitValue, if_pos (h c hc)]
    change c.toNat - 48 < 10
    omega
  unfold natOfDigits
  rw [if_pos ⟨by simpa using hne, by simpa using hdigits⟩]
  exact ⟨_, rfl⟩

theorem parseInt_of_writes {n : ℕ} (h : Writes zeros part n) : parseInt part = some (n : ℤ) := by
  rw [JsVal.parseInt_of_digits h.1.2.1, h.2]
  rfl

theorem exists_writes (h : ∀ part ∈ parts, Plain zeros part) :
    ∃ ns, List.Forall₂ (Writes zeros) parts ns := by
  induction parts with
  | nil => exact ⟨[], .nil⟩
  | cons part parts ih =>
    have hpart := h part List.mem_cons_self
    obtain ⟨n, hn⟩ := exists_natOfDigits hpart.1 hpart.2.1
    obtain ⟨ns, hns⟩ := ih fun p hp => h p (List.mem_cons_of_mem _ hp)
    exact ⟨n :: ns, .cons ⟨hpart, hn⟩ hns⟩

theorem plain_of_writes {ns : List ℕ} (h : List.Forall₂ (Writes zeros) parts ns) :
    ∀ part ∈ parts, Plain zeros part := by
  induction h with
  | nil => simp
  | cons hpart _ ih => simpa using ⟨hpart.1, ih⟩

theorem map_parseInt_of_writes {ns : List ℕ} (h : List.Forall₂ (Writes zeros) parts ns) :
    parts.map parseInt = (ns.map fun n : ℕ => (n : ℤ)).map some := by
  induction h with
  | nil => rfl
  | cons hpart _ ih => simp [parseInt_of_writes hpart, ih]

/-! ### Masks -/

theorem validOctets_eq : validOctets = Bits.maskOctets.map fun n : ℕ => (n : ℤ) := rfl

theorem mem_validOctets {n : ℕ} : (n : ℤ) ∈ validOctets ↔ n ∈ Bits.maskOctets := by
  simp [validOctets_eq]

theorem lt_of_mem_maskOctets {n : ℕ} (h : n ∈ Bits.maskOctets) : n < 256 := by
  have hle := le_of_mem_validOctets (mem_validOctets.mpr h)
  omega

/-- A mask is what is read rightly: plain parts, and only zeros after an octet that is not all
ones. -/
theorem isMask_iff :
    IsMask zeros s ↔ ∃ octets, ReadsOctets s octets ∧ (∀ part ∈ Text.split s '.', Plain zeros part) ∧
      octets.Pairwise fun m n => m = 255 ∨ n = 0 := by
  constructor
  · rintro ⟨ns, hlength, hwrites, hlt, hrun⟩
    obtain ⟨hmask, hzeros⟩ := (Bits.run_iff hlt).mp hrun
    have hvalid : ∀ n ∈ ns.map fun n : ℕ => (n : ℤ), n ∈ validOctets := by
      simpa [mem_validOctets] using hmask
    have hruns : (ns.map fun n : ℕ => (n : ℤ)).Pairwise fun m n => m = 255 ∨ n = 0 := by
      rw [List.pairwise_map]
      exact hzeros.imp fun h => by omega
    refine ⟨_, ⟨by simpa using hlength, map_parseInt_of_writes hwrites, hvalid, ?_⟩,
      plain_of_writes hwrites, hruns⟩
    refine hruns.imp_of_mem fun {m n} hm hn h => ?_
    have hm' := le_of_mem_validOctets (hvalid m hm)
    have hn' := le_of_mem_validOctets (hvalid n hn)
    omega
  · rintro ⟨octets, ⟨hlength, hmap, hvalid, -⟩, hplain, hruns⟩
    obtain ⟨ns, hwrites⟩ := exists_writes hplain
    have hoctets : octets = ns.map fun n : ℕ => (n : ℤ) := by
      rw [map_parseInt_of_writes hwrites] at hmap
      exact (List.map_injective_iff.mpr (Option.some_injective ℤ) hmap).symm
    subst hoctets
    have hmask : ∀ n ∈ ns, n ∈ Bits.maskOctets := by simpa [mem_validOctets] using hvalid
    have hlt : ∀ n ∈ ns, n < 256 := fun n hn => lt_of_mem_maskOctets (hmask n hn)
    refine ⟨ns, by simpa using hlength, hwrites, hlt, (Bits.run_iff hlt).mpr ⟨hmask, ?_⟩⟩
    rw [List.pairwise_map] at hruns
    exact hruns.imp fun h => by omega

/-- What is read is determined by the text. -/
theorem ReadsOctets.unique {octets' : List ℤ} (h : ReadsOctets s octets)
    (h' : ReadsOctets s octets') : octets = octets' :=
  List.map_injective_iff.mpr (Option.some_injective ℤ) (h.2.1.symm.trans h'.2.1)

/-- No mask is refused. -/
theorem isSubnetMask_of_isMask (h : IsMask zeros s) : isSubnetMask (some (.str s)) = true := by
  obtain ⟨octets, hreads, -⟩ := isMask_iff.mp h
  exact isSubnetMask_iff.mpr ⟨octets, hreads⟩

/-- The validator is right about a text if and only if it does not read octets in it that are
not those of a mask. -/
theorem isSubnetMask_iff_isMask_iff (zeros : Bool) (s : String) :
    (isSubnetMask (some (.str s)) = true ↔ IsMask zeros s) ↔ ¬ Misread zeros s := by
  constructor
  · rintro hright ⟨octets, hreads, hwrong⟩
    obtain ⟨octets', hreads', hplain, hruns⟩ :=
      isMask_iff.mp (hright.mp (isSubnetMask_iff.mpr ⟨octets, hreads⟩))
    rw [hreads.unique hreads'] at hwrong
    obtain ⟨part, hpart, hnot⟩ | hnot := hwrong
    · exact hnot (hplain part hpart)
    · exact hnot hruns
  · intro hnot
    refine ⟨fun haccepted => ?_, isSubnetMask_of_isMask⟩
    obtain ⟨octets, hreads⟩ := isSubnetMask_iff.mp haccepted
    refine isMask_iff.mpr ⟨octets, hreads, fun part hpart => ?_, ?_⟩
    · by_contra hplain
      exact hnot ⟨octets, hreads, .inl ⟨part, hpart, hplain⟩⟩
    · by_contra hruns
      exact hnot ⟨octets, hreads, .inr hruns⟩

/-- `254.128.0.0` is accepted. -/
theorem not_isSubnetMask_iff_isMask :
    ¬ ∃ zeros : Bool, ∀ s : String, isSubnetMask (some (.str s)) = true ↔ IsMask zeros s := by
  rintro ⟨zeros, h⟩
  obtain ⟨octets, hreads, -, hruns⟩ := isMask_iff.mp ((h "254.128.0.0").mp (by decide))
  have hoctets : octets = [254, 128, 0, 0] :=
    hreads.unique ⟨rfl, by decide, by decide, by decide⟩
  subst hoctets
  exact absurd hruns (by decide)

end IotPanel.Config
