import Eloth.Texts
import Mathlib.Data.List.MinMax

/-!
# Instant spells

`Spells::getInstantSpell` chooses the spell with the longest words that the spoken text begins
with, and only then looks at the end of these words and at the parameter.
-/

namespace Eloth

structure InstantSpell where
  words : List UInt8
  hasParam : Bool
  deriving DecidableEq

/-- The spells in the order of the map, whose keys are the words. -/
structure InstantSpells where
  instants : List InstantSpell
  keys : (instants.map InstantSpell.words).Nodup

namespace InstantSpell

variable (spell : InstantSpell) (words : List UInt8)

/-- The spoken text begins with the words of the spell. -/
def leads : Bool := strncasecmp spell.words words spell.words.length

/-- The check of the end of the words and of the parameter. -/
def accepts : Bool :=
  if words.length > spell.words.length then
    if !spell.hasParam then false
    else
      let spellLen := spell.words.length
      let paramLen := words.length - spellLen
      !(paramLen < 2 || words[spellLen]? ≠ some BLANK)
  else true

/-- The text is the words of the spell, or the words, a blank and a parameter. -/
def Matches : Prop :=
  ∃ spoken param, words = spoken ++ param ∧ spoken.length = spell.words.length ∧
    sameText spoken spell.words = true ∧
    (param = [] ∨ spell.hasParam = true ∧ ∃ rest, rest ≠ [] ∧ param = BLANK :: rest)

end InstantSpell

/-- The loop of `getInstantSpell` over the spells that are left. -/
def findInstantSpell (words : List UInt8) :
    List InstantSpell → Option InstantSpell → Option InstantSpell
  | [], result => result
  | spell :: rest, result =>
    if spell.leads words then
      if result.all fun r => spell.words.length > r.words.length then
        if words.length = spell.words.length then some spell
        else findInstantSpell words rest (some spell)
      else findInstantSpell words rest result
    else findInstantSpell words rest result

def getInstantSpell (instants : List InstantSpell) (words : List UInt8) : Option InstantSpell :=
  (findInstantSpell words instants none).filter fun result => result.accepts words

/-! ## The property and when it holds -/

namespace InstantSpells

variable (self : InstantSpells) (words : List UInt8)

/-- The answer is the matching spell with the longest words, in whatever order the map is. -/
def FindsLongest : Prop :=
  ∀ instants, instants.Perm self.instants →
    (∀ order, order.Perm self.instants →
      getInstantSpell order words = getInstantSpell instants words) ∧
    match getInstantSpell instants words with
    | none => ∀ spell ∈ self.instants, ¬ spell.Matches words
    | some result => result ∈ self.instants ∧ result.Matches words ∧
        ∀ spell ∈ self.instants, spell.Matches words → spell.words.length ≤ result.words.length

/-- No spell matches, or the one with the longest words that lead the text does. -/
def LeadMatches : Prop :=
  ((∀ spell ∈ self.instants, ¬ spell.Matches words) ∧
      ∀ spell ∈ self.instants, spell.leads words = true →
        spell.words.length ≤ words.length) ∨
    ∃ result ∈ self.instants, result.Matches words ∧
      ∀ spell ∈ self.instants, spell.leads words = true → spell ≠ result →
        spell.words.length < result.words.length

end InstantSpells

/-! ## Matching -/

namespace InstantSpell

variable {spell : InstantSpell} {words : List UInt8}

theorem leads_iff :
    spell.leads words = true ↔ sameText (words.take spell.words.length) spell.words = true := by
  unfold leads strncasecmp
  rw [List.take_length, sameText_comm]

theorem Matches.leads (h : spell.Matches words) : spell.leads words = true := by
  obtain ⟨spoken, param, rfl, hlength, hsame, -⟩ := h
  rw [leads_iff, ← hlength, List.take_left]
  exact hsame

theorem Matches.length_le (h : spell.Matches words) : spell.words.length ≤ words.length := by
  obtain ⟨spoken, param, rfl, hlength, -, -⟩ := h
  rw [List.length_append]
  omega

theorem accepts_iff (hle : spell.words.length ≤ words.length) :
    spell.accepts words = true ↔ words.drop spell.words.length = [] ∨
      spell.hasParam = true ∧ ∃ rest, rest ≠ [] ∧
        words.drop spell.words.length = BLANK :: rest := by
  have hhead : words[spell.words.length]? = (words.drop spell.words.length).head? := by
    rw [List.head?_drop]
  have hlength := List.length_drop (i := spell.words.length) (l := words)
  unfold accepts
  dsimp only
  rw [hhead]
  cases hparam : words.drop spell.words.length with
  | nil =>
    rw [hparam, List.length_nil] at hlength
    rw [if_neg (by omega)]
    simp
  | cons c rest =>
    rw [hparam, List.length_cons] at hlength
    rw [if_pos (by omega)]
    cases hhas : spell.hasParam with
    | false => simp
    | true =>
      cases rest with
      | nil =>
        have hshort : words.length - spell.words.length < 2 := by
          rw [← hlength, List.length_nil]
          omega
        simp [hshort]
      | cons d rest =>
        have hlong : ¬ words.length - spell.words.length < 2 := by
          rw [← hlength, List.length_cons]
          omega
        simp [hlong]

/-- A spell whose words lead the text is accepted exactly when it matches. -/
theorem matches_iff_accepts (hleads : spell.leads words = true)
    (hle : spell.words.length ≤ words.length) :
    spell.Matches words ↔ spell.accepts words = true := by
  rw [accepts_iff hle]
  constructor
  · rintro ⟨spoken, param, rfl, hlength, -, hparam⟩
    rwa [← hlength, List.drop_left]
  · intro hparam
    exact ⟨_, _, (List.take_append_drop spell.words.length words).symm, by
      rw [List.length_take]; omega, leads_iff.mp hleads, hparam⟩

/-- What is longer than the text is accepted unseen. -/
theorem accepts_of_gt (h : words.length < spell.words.length) : spell.accepts words = true := by
  unfold accepts
  rw [if_neg (by omega)]

end InstantSpell

/-! ## The loop -/

variable {words : List UInt8} {spell result : InstantSpell} {instants : List InstantSpell}

/-- What the loop has found so far: nothing leads the text, or nothing that does is longer. -/
structure Leader (words : List UInt8) (seen : List InstantSpell) (result : Option InstantSpell) :
    Prop where
  leads : ∀ r ∈ result, r ∈ seen ∧ r.leads words = true
  longest : ∀ spell ∈ seen, spell.leads words = true →
    ∃ r ∈ result, spell.words.length ≤ r.words.length

/-- The loop ends with the longest of all, or with one as long as the text. -/
theorem findInstantSpell_spec {seen : List InstantSpell} {found : Option InstantSpell}
    (h : Leader words seen found) :
    Leader words (seen ++ instants) (findInstantSpell words instants found) ∨
      ∃ r ∈ findInstantSpell words instants found, r ∈ seen ++ instants ∧
        r.leads words = true ∧ r.words.length = words.length := by
  induction instants generalizing seen found with
  | nil => exact .inl (by rwa [List.append_nil])
  | cons spell rest ih =>
    have happend : seen ++ spell :: rest = seen ++ [spell] ++ rest := by simp
    rw [happend]
    unfold findInstantSpell
    have hkeep : (spell.leads words = true → ∃ r ∈ found, spell.words.length ≤ r.words.length) →
        Leader words (seen ++ [spell]) found := by
      intro hspell
      refine ⟨fun r hr => ⟨List.mem_append_left _ (h.leads r hr).1, (h.leads r hr).2⟩, ?_⟩
      intro s hs hleads
      rcases List.mem_append.mp hs with hold | hnew
      · exact h.longest s hold hleads
      · rw [List.mem_singleton.mp hnew] at hleads ⊢
        exact hspell hleads
    split_ifs with hleads hlonger hwhole
    · refine .inr ⟨spell, rfl, ?_, hleads, hwhole.symm⟩
      exact List.mem_append_left _ (List.mem_append_right _ (List.mem_singleton_self spell))
    · refine ih ⟨?_, ?_⟩
      · rintro r ⟨⟩
        exact ⟨List.mem_append_right _ (List.mem_singleton_self spell), hleads⟩
      · intro s hs hsleads
        refine ⟨spell, rfl, ?_⟩
        rcases List.mem_append.mp hs with hold | hnew
        · obtain ⟨r, hr, hle⟩ := h.longest s hold hsleads
          have hgt : r.words.length < spell.words.length := by
            simpa [Option.mem_def.mp hr] using hlonger
          omega
        · rw [List.mem_singleton.mp hnew]
    · refine ih (hkeep fun _ => ?_)
      cases found with
      | none => simp at hlonger
      | some r =>
        refine ⟨r, rfl, ?_⟩
        simpa using hlonger
    · exact ih (hkeep fun htrue => absurd htrue hleads)

/-- Nothing that is not longer takes the place of a spell. -/
theorem findInstantSpell_keeps
    (h : ∀ s ∈ instants, s.leads words = true → s.words.length ≤ spell.words.length) :
    findInstantSpell words instants (some spell) = some spell := by
  induction instants with
  | nil => rfl
  | cons s rest ih =>
    have hrest := ih fun t ht => h t (List.mem_cons_of_mem _ ht)
    unfold findInstantSpell
    split_ifs with hleads hlonger
    · have hle := h s List.mem_cons_self hleads
      simp at hlonger
      omega
    · have hle := h s List.mem_cons_self hleads
      simp at hlonger
      omega
    · exact hrest
    · exact hrest

theorem findInstantSpell_first (hleads : spell.leads words = true)
    (h : ∀ s ∈ instants, s.leads words = true → s.words.length ≤ spell.words.length) :
    findInstantSpell words (spell :: instants) none = some spell := by
  unfold findInstantSpell
  rw [if_pos hleads, Option.all_none, if_pos rfl]
  split_ifs
  · rfl
  · exact findInstantSpell_keeps h

namespace InstantSpells

variable {self : InstantSpells}

theorem exists_longest (h : ∃ spell ∈ self.instants, spell.leads words = true) :
    ∃ spell ∈ self.instants, spell.leads words = true ∧
      ∀ s ∈ self.instants, s.leads words = true → s.words.length ≤ spell.words.length := by
  obtain ⟨spell, hspell, hleads⟩ := h
  let leading := self.instants.filter fun s => s.leads words
  let length (s : InstantSpell) : Nat := s.words.length
  have hmem : spell ∈ leading := List.mem_filter.mpr ⟨hspell, hleads⟩
  cases hmax : leading.argmax length with
  | none => exact absurd hmem (by rw [List.argmax_eq_none.mp hmax]; exact List.not_mem_nil)
  | some longest =>
    obtain ⟨hin, hlongest⟩ := List.mem_filter.mp (List.argmax_mem hmax)
    refine ⟨longest, hin, hlongest, fun s hs hsleads => ?_⟩
    have hs' : s ∈ leading := List.mem_filter.mpr ⟨hs, hsleads⟩
    exact List.le_of_mem_argmax (f := length) hs' hmax

/-- In an order that begins with it, a longest spell is what is looked at in the end. -/
theorem exists_order_first (hspell : spell ∈ self.instants) (hleads : spell.leads words = true)
    (hlongest : ∀ s ∈ self.instants, s.leads words = true →
      s.words.length ≤ spell.words.length) :
    ∃ order, order.Perm self.instants ∧
      getInstantSpell order words = (some spell).filter fun result => result.accepts words := by
  refine ⟨spell :: self.instants.erase spell, (List.perm_cons_erase hspell).symm, ?_⟩
  unfold getInstantSpell
  rw [findInstantSpell_first hleads fun s hs => hlongest s (List.mem_of_mem_erase hs)]

theorem leadMatches_of_findsLongest (h : self.FindsLongest words) : self.LeadMatches words := by
  by_cases hany : ∃ spell ∈ self.instants, spell.leads words = true
  · obtain ⟨spell, hspell, hleads, hlongest⟩ := exists_longest hany
    obtain ⟨order, hperm, horder⟩ := exists_order_first hspell hleads hlongest
    obtain ⟨hsame, hresult⟩ := h order hperm
    by_cases haccepts : spell.accepts words = true
    · have hfound : getInstantSpell order words = some spell := by
        rw [horder, Option.filter_some, if_pos haccepts]
      rw [hfound] at hresult
      refine .inr ⟨spell, hspell, hresult.2.1, fun s hs hsleads hne => ?_⟩
      refine lt_of_le_of_ne (hlongest s hs hsleads) fun hlength => hne ?_
      -- another spell of this length would be the answer in an order of its own
      obtain ⟨order', hperm', horder'⟩ := exists_order_first hs hsleads fun t ht htleads =>
        hlength ▸ hlongest t ht htleads
      have hother := (hsame order' hperm').symm.trans horder'
      rw [hfound] at hother
      exact (Option.some.inj (Option.filter_eq_some_iff.mp hother.symm).1)
    · have hfound : getInstantSpell order words = none := by
        rw [horder, Option.filter_some, if_neg haccepts]
      rw [hfound] at hresult
      refine .inl ⟨hresult, fun s hs hsleads => (hlongest s hs hsleads).trans ?_⟩
      by_contra hgt
      exact haccepts (InstantSpell.accepts_of_gt (Nat.lt_of_not_le hgt))
  · refine .inl ⟨fun s hs hmatches => hany ⟨s, hs, hmatches.leads⟩, fun s hs hleads => ?_⟩
    exact absurd ⟨s, hs, hleads⟩ hany

/-- What the loop ends with leads the text, and is the longest or as long as the text. -/
theorem found_spec (order : List InstantSpell) :
    (∀ r ∈ findInstantSpell words order none, r ∈ order ∧ r.leads words = true) ∧
    ∀ s ∈ order, s.leads words = true → ∃ r ∈ findInstantSpell words order none,
      s.words.length ≤ r.words.length ∨ r.words.length = words.length := by
  have hnone : Leader words [] none := ⟨fun _ hr => (nomatch hr), fun _ hs => (nomatch hs)⟩
  rcases @findInstantSpell_spec words order [] none hnone with
    hleader | ⟨r, hr, hin, hleads, hlength⟩
  · refine ⟨hleader.leads, fun s hs hsleads => ?_⟩
    obtain ⟨r, hr, hle⟩ := hleader.longest s hs hsleads
    exact ⟨r, hr, .inl hle⟩
  · refine ⟨fun r' hr' => ?_, fun s _ _ => ⟨r, hr, .inr hlength⟩⟩
    cases Option.mem_unique hr hr'
    exact ⟨hin, hleads⟩

theorem getInstantSpell_of_leadMatches (h : self.LeadMatches words) :
    ∃ answer : Option InstantSpell,
      (∀ order, order.Perm self.instants → getInstantSpell order words = answer) ∧
      match answer with
      | none => ∀ spell ∈ self.instants, ¬ spell.Matches words
      | some result => result ∈ self.instants ∧ result.Matches words ∧
          ∀ spell ∈ self.instants, spell.Matches words →
            spell.words.length ≤ result.words.length := by
  rcases h with ⟨hnone, hshort⟩ | ⟨result, hresult, hmatches, hlongest⟩
  · refine ⟨none, fun order hperm => ?_, hnone⟩
    rw [getInstantSpell, Option.filter_eq_none_iff]
    intro r hr haccepts
    obtain ⟨hin, hleads⟩ := (found_spec order).1 r hr
    have hin := hperm.mem_iff.mp hin
    exact hnone r hin ((InstantSpell.matches_iff_accepts hleads (hshort r hin hleads)).mpr haccepts)
  · refine ⟨some result, fun order hperm => ?_, hresult, hmatches, fun s hs hsmatches => ?_⟩
    · obtain ⟨hleads, hcovers⟩ := @found_spec words order
      obtain ⟨r, hr, hr'⟩ := hcovers result (hperm.mem_iff.mpr hresult) hmatches.leads
      have hsame : r = result := by
        by_contra hne
        have hlt := hlongest r (hperm.mem_iff.mp (hleads r hr).1) (hleads r hr).2 hne
        have hle := hmatches.length_le
        omega
      rw [getInstantSpell, Option.mem_def.mp hr, hsame, Option.filter_some, if_pos]
      exact (InstantSpell.matches_iff_accepts hmatches.leads hmatches.length_le).mp hmatches
    · by_cases hsame : s = result
      · rw [hsame]
      · exact (hlongest s hs hsmatches.leads hsame).le

/-- The answer is the longest match in every order of the map exactly when the spell with the
longest words that lead the text is one and matches, or none matches. -/
theorem findsLongest_iff (self : InstantSpells) (words : List UInt8) :
    self.FindsLongest words ↔ self.LeadMatches words := by
  refine ⟨leadMatches_of_findsLongest, fun h instants hperm => ?_⟩
  obtain ⟨answer, hanswer, hspec⟩ := getInstantSpell_of_leadMatches h
  rw [hanswer instants hperm]
  exact ⟨hanswer, hspec⟩

/-- `utevo res ina` and `utevo res`, both with a parameter. -/
def summons : InstantSpells where
  instants :=
    [⟨[117, 116, 101, 118, 111, 32, 114, 101, 115, 32, 105, 110, 97], true⟩,
      ⟨[117, 116, 101, 118, 111, 32, 114, 101, 115], true⟩]
  keys := by decide

/-- `utevo res inax`. -/
def summonInax : List UInt8 := [117, 116, 101, 118, 111, 32, 114, 101, 115, 32, 105, 110, 97, 120]

theorem not_findsLongest_summons :
    ¬ ∀ (self : InstantSpells) (words : List UInt8), self.FindsLongest words := by
  intro h
  have hnone := (h summons summonInax summons.instants (List.Perm.refl _)).2
  have hanswer : getInstantSpell summons.instants summonInax = none := by decide
  rw [hanswer] at hnone
  refine hnone _ (List.mem_cons_of_mem _ List.mem_cons_self) ?_
  exact ⟨[117, 116, 101, 118, 111, 32, 114, 101, 115], [32, 105, 110, 97, 120], rfl, rfl, by decide,
    .inr ⟨rfl, [105, 110, 97, 120], by decide, rfl⟩⟩

end InstantSpells

end Eloth
