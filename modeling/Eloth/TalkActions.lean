import Eloth.Texts

/-!
# Talk actions

`TalkActions::playerSaySpell` tries the actions in the order of the map. The first one whose words
and parameter fit runs, unless the player may not use it.
-/

namespace Eloth

inductive TalkActionResult where
  | CONTINUE | BREAK | FAILED
  deriving DecidableEq

/-- An entry of the map; `words` is its key. -/
structure TalkAction where
  words : List UInt8
  separator : List UInt8
  fromLua : Bool
  needAccess : Bool
  requiredAccountType : UInt8
  deriving DecidableEq

/-- What `playerSaySpell` asks of the player. -/
structure Speaker where
  access : Bool
  accountType : UInt8

namespace TalkAction

variable (self : TalkAction)

/-- What follows the words becomes the parameter, or leads to the next action. -/
def separate (param : List UInt8) : Option (List UInt8) :=
  if param.head? ≠ some BLANK then none
  else
    let param := trim_left param BLANK
    if self.separator ≠ [BLANK] then
      if !param.isEmpty then
        if param ≠ self.separator then none else some param.tail
      else some param
    else some param

/-- The parameter that the action is run with, unless the loop goes to the next one. -/
def parameter (words : List UInt8) : Option (List UInt8) :=
  if words.length < self.words.length || !strncasecmp words self.words self.words.length then none
  else if words.length ≠ self.words.length then self.separate (words.drop self.words.length)
  else some []

def refuses (player : Speaker) : Bool :=
  self.fromLua &&
    (self.needAccess && !player.access || player.accountType < self.requiredAccountType)

end TalkAction

/-- The result, and the action that runs with its parameter. -/
def playerSaySpell (executeSay : TalkAction → List UInt8 → Bool) (player : Speaker)
    (words : List UInt8) : List TalkAction → TalkActionResult × Option (TalkAction × List UInt8)
  | [] => (.CONTINUE, none)
  | action :: rest =>
    match action.parameter words with
    | none => playerSaySpell executeSay player words rest
    | some param =>
      if action.refuses player then (.CONTINUE, none)
      else if executeSay action param then (.CONTINUE, some (action, param))
      else (.BREAK, some (action, param))

/-! ## What an action is meant to hear -/

namespace TalkAction

variable (self : TalkAction)

/-- The text is the words, the words and blanks, or the words, blanks and a parameter, which
begins with the separator if that is not a blank. -/
inductive Hears (words : List UInt8) : List UInt8 → Prop
  | words (hlength : words.length = self.words.length) (hsame : sameText words self.words = true) :
      Hears words []
  | blanks {spoken rest : List UInt8} (htext : words = spoken ++ BLANK :: rest)
      (hlength : spoken.length = self.words.length) (hsame : sameText spoken self.words = true)
      (hblanks : ∀ c ∈ rest, c = BLANK) : Hears words []
  | plain {spoken rest : List UInt8} (htext : words = spoken ++ BLANK :: rest)
      (hlength : spoken.length = self.words.length) (hsame : sameText spoken self.words = true)
      (hparam : ∃ c ∈ rest, c ≠ BLANK) (hblank : self.separator = [BLANK]) :
      Hears words (trim_left rest BLANK)
  | separated {spoken rest param : List UInt8} (htext : words = spoken ++ BLANK :: rest)
      (hlength : spoken.length = self.words.length) (hsame : sameText spoken self.words = true)
      (hparam : ∃ c ∈ rest, c ≠ BLANK) (hblank : self.separator ≠ [BLANK])
      (hseparator : trim_left rest BLANK = self.separator ++ param) : Hears words param

/-- The parameter begins with the separator, and there is more than a separator of one byte. -/
def Cut (words : List UInt8) : Prop :=
  self.separator ≠ [BLANK] ∧ ∃ rest param,
    words.drop self.words.length = BLANK :: rest ∧ (∃ c ∈ rest, c ≠ BLANK) ∧
      trim_left rest BLANK = self.separator ++ param ∧
      (param ≠ [] ∨ self.separator.length ≠ 1)

variable {self} {words spoken rest param : List UInt8}

theorem parameter_append (hlength : spoken.length = self.words.length) :
    self.parameter (spoken ++ rest) =
      if sameText spoken self.words then
        if rest = [] then some [] else self.separate rest
      else none := by
  have hleads : strncasecmp (spoken ++ rest) self.words self.words.length =
      sameText spoken self.words := by
    rw [strncasecmp, List.take_length, ← hlength, List.take_left]
  unfold parameter
  rw [hleads, List.length_append, ← hlength, List.drop_left]
  cases hsame : sameText spoken self.words with
  | false => simp
  | true =>
    cases rest with
    | nil => simp
    | cons c rest => simp

theorem trim_left_blank : trim_left (BLANK :: rest) BLANK = trim_left rest BLANK := by
  simp [trim_left]

theorem trim_left_eq_nil_or :
    trim_left rest BLANK = [] ∧ (∀ c ∈ rest, c = BLANK) ∨
      trim_left rest BLANK ≠ [] ∧ ∃ c ∈ rest, c ≠ BLANK := by
  by_cases hnil : trim_left rest BLANK = []
  · exact .inl ⟨hnil, trim_left_eq_nil.mp hnil⟩
  · refine .inr ⟨hnil, ?_⟩
    by_contra hblank
    exact hnil (trim_left_eq_nil.mpr fun c hc => by_contra fun hne => hblank ⟨c, hc, hne⟩)

theorem separate_blank :
    self.separate (BLANK :: rest) =
      if self.separator ≠ [BLANK] then
        if trim_left rest BLANK = [] then some []
        else if trim_left rest BLANK = self.separator then some self.separator.tail else none
      else some (trim_left rest BLANK) := by
  unfold separate
  rw [if_neg (by simp), trim_left_blank]
  cases hparam : trim_left rest BLANK with
  | nil => simp
  | cons c param =>
    by_cases hsep : c :: param = self.separator
    · simp [← hsep]
    · simp [hsep]

/-- An action that goes on with a parameter has heard one. -/
theorem hears_of_parameter (h : self.parameter words = some param) :
    ∃ param, self.Hears words param := by
  have hle : self.words.length ≤ words.length := by
    by_contra hlt
    rw [parameter, decide_eq_true (Nat.lt_of_not_le hlt)] at h
    cases h
  obtain ⟨spoken, rest, rfl, hlength⟩ : ∃ spoken rest, words = spoken ++ rest ∧
      spoken.length = self.words.length :=
    ⟨_, _, (List.take_append_drop self.words.length words).symm, by rw [List.length_take]; omega⟩
  rw [parameter_append hlength] at h
  split_ifs at h with hsame hrest
  · subst hrest
    exact ⟨[], .words (by rw [List.append_nil, hlength]) (by rwa [List.append_nil])⟩
  · cases rest with
    | nil => exact absurd rfl hrest
    | cons c rest =>
      by_cases hblank : c = BLANK
      · subst hblank
        rcases @trim_left_eq_nil_or rest with ⟨-, hblanks⟩ | ⟨hne, hparam⟩
        · exact ⟨[], .blanks rfl hlength hsame hblanks⟩
        · by_cases hsep : self.separator = [BLANK]
          · exact ⟨_, .plain rfl hlength hsame hparam hsep⟩
          · rw [separate_blank, if_pos hsep, if_neg hne] at h
            split_ifs at h with hwhole
            exact ⟨[], .separated rfl hlength hsame hparam hsep (by rw [hwhole, List.append_nil])⟩
      · rw [separate, if_pos (by simpa using hblank)] at h
        cases h

/-- What is heard is the parameter, unless more than the separator is there. -/
theorem parameter_of_hears (h : self.Hears words param) (hcut : ¬ self.Cut words) :
    self.parameter words = some param := by
  cases h with
  | words hlength hsame =>
    have hsplit := @parameter_append self _ [] hlength
    rwa [List.append_nil, hsame, if_pos rfl, if_pos rfl] at hsplit
  | blanks htext hlength hsame hblanks =>
    subst htext
    rw [parameter_append hlength, hsame, if_pos rfl, if_neg (List.cons_ne_nil _ _), separate_blank,
      trim_left_eq_nil.mpr hblanks, if_pos rfl, ite_self]
  | plain htext hlength hsame hparam hblank =>
    subst htext
    rw [parameter_append hlength, hsame, if_pos rfl, if_neg (List.cons_ne_nil _ _), separate_blank,
      if_neg (not_not.mpr hblank)]
  | @separated spoken rest _ htext hlength hsame hparam hblank hseparator =>
    subst htext
    have hne : trim_left rest BLANK ≠ [] := fun hnil => by
      obtain ⟨c, hc, hblank⟩ := hparam
      exact hblank (trim_left_eq_nil.mp hnil c hc)
    have hwhole : param = [] ∧ self.separator.length = 1 := by
      by_contra hmore
      refine hcut ⟨hblank, rest, param, by rw [← hlength, List.drop_left], hparam, hseparator, ?_⟩
      tauto
    obtain ⟨rfl, hone⟩ := hwhole
    obtain ⟨c, hc⟩ := List.length_eq_one_iff.mp hone
    rw [List.append_nil] at hseparator
    rw [parameter_append hlength, hsame, if_pos rfl, if_neg (List.cons_ne_nil _ _), separate_blank,
      if_pos hblank, if_neg hne, if_pos hseparator, hc]
    rfl

theorem parameter_of_not_hears (h : ∀ param, ¬ self.Hears words param) :
    self.parameter words = none := by
  cases hparam : self.parameter words with
  | none => rfl
  | some param =>
    obtain ⟨param, hhears⟩ := hears_of_parameter hparam
    exact absurd hhears (h param)

end TalkAction

/-! ## Which action runs -/

variable {executeSay : TalkAction → List UInt8 → Bool} {player : Speaker} {words : List UInt8}

theorem playerSaySpell_skips {before after : List TalkAction}
    (h : ∀ action ∈ before, ∀ param, ¬ action.Hears words param) :
    playerSaySpell executeSay player words (before ++ after) =
      playerSaySpell executeSay player words after := by
  induction before with
  | nil => rfl
  | cons action before ih =>
    rw [List.cons_append, playerSaySpell,
      TalkAction.parameter_of_not_hears (h action List.mem_cons_self)]
    exact ih fun a ha => h a (List.mem_cons_of_mem _ ha)

/-- The first action that hears the text decides: it runs with the parameter that it hears, or
the player may not use it. Without one nothing runs. -/
theorem playerSaySpell_first (executeSay : TalkAction → List UInt8 → Bool) (player : Speaker)
    (words : List UInt8) (before : List TalkAction)
    (h : ∀ action ∈ before, ∀ param, ¬ action.Hears words param) :
    playerSaySpell executeSay player words before = (.CONTINUE, none) ∧
      ∀ action after param, action.Hears words param → ¬ action.Cut words →
        playerSaySpell executeSay player words (before ++ action :: after) =
          if action.refuses player then (.CONTINUE, none)
          else (if executeSay action param then .CONTINUE else .BREAK, some (action, param)) := by
  refine ⟨?_, fun action after param hhears hcut => ?_⟩
  · have hall := @playerSaySpell_skips executeSay player words _ [] h
    rwa [List.append_nil] at hall
  · rw [playerSaySpell_skips h, playerSaySpell, TalkAction.parameter_of_hears hhears hcut]
    dsimp only
    split_ifs
    · rfl
    · rfl
    · rfl

/-- `/reload`, for players with access. -/
def reload : TalkAction where
  words := [47, 114, 101, 108, 111, 97, 100]
  separator := [34]
  fromLua := true
  needAccess := true
  requiredAccountType := 1

def commoner : Speaker where
  access := false
  accountType := 1

/-- `/m`. -/
def summonMonster : TalkAction where
  words := [47, 109]
  separator := [34]
  fromLua := true
  needAccess := true
  requiredAccountType := 1

theorem reload_hears : reload.Hears reload.words [] := .words rfl (by decide)

theorem not_cut_of_drop {action : TalkAction} {words : List UInt8}
    (h : (words.drop action.words.length).head? ≠ some BLANK) : ¬ action.Cut words := by
  rintro ⟨-, rest, _, hdrop, -⟩
  rw [hdrop] at h
  exact h rfl

theorem playerSaySpell_first_reload :
    playerSaySpell (fun _ _ => false) { commoner with access := true } reload.words
      [summonMonster, reload] = (.BREAK, some (reload, [])) := by
  have hbefore : ∀ action ∈ [summonMonster], ∀ param, ¬ action.Hears reload.words param := by
    intro action haction param hhears
    rw [List.mem_singleton.mp haction] at hhears
    have hparam := TalkAction.parameter_of_hears hhears (not_cut_of_drop (by decide))
    have hnone : summonMonster.parameter reload.words = none := by decide
    rw [hnone] at hparam
    cases hparam
  exact (playerSaySpell_first (fun _ _ => false) { commoner with access := true } reload.words
    [summonMonster] hbefore).2 reload [] [] reload_hears (not_cut_of_drop (by decide))

theorem reload_does_not_run :
    ¬ ∀ (executeSay : TalkAction → List UInt8 → Bool) (player : Speaker) (words : List UInt8)
      (actions : List TalkAction),
      (playerSaySpell executeSay player words actions).2.isSome ↔
        ∃ action ∈ actions, ∃ param, action.Hears words param := by
  intro h
  have hruns := (h (fun _ _ => true) commoner reload.words [reload]).mpr
    ⟨reload, List.mem_singleton_self reload, [], reload_hears⟩
  revert hruns
  decide

end Eloth
