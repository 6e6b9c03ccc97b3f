import Mathlib.Data.List.Chain
import Eloth.Lib.Keyed

/-!
# Connection attempts

`Ban::acceptConnection`. Times are in milliseconds; the clock of 64 bits does not wrap.
-/

namespace Eloth

structure ConnectBlock where
  lastAttempt : Nat
  blockTime : Nat
  count : Nat
  deriving DecidableEq, Repr

/-- `Ban::ipConnectMap`. -/
abbrev IpConnectMap := UInt32 → Option ConnectBlock

namespace Ban

/-- The part of `acceptConnection` between the lookup of the address and the update of its
entry. -/
def connect : Machine ConnectBlock Nat Bool
  | none, currentTime => (true, { lastAttempt := currentTime, blockTime := 0, count := 1 })
  | some connectBlock, currentTime =>
    if currentTime < connectBlock.blockTime then
      (false, { connectBlock with blockTime := connectBlock.blockTime + 250 })
    else
      let timeDiff : Int := currentTime - connectBlock.lastAttempt
      let connectBlock := { connectBlock with lastAttempt := currentTime }
      if timeDiff ≤ 5000 then
        let connectBlock := { connectBlock with count := connectBlock.count + 1 }
        if 5 < connectBlock.count then
          let connectBlock := { connectBlock with count := 0 }
          if timeDiff ≤ 500 then
            (false, { connectBlock with blockTime := currentTime + 3000 })
          else (true, connectBlock)
        else (true, connectBlock)
      else (true, { connectBlock with count := 1 })

def acceptConnection (ipConnectMap : IpConnectMap) (clientIP : UInt32) (currentTime : Nat) :
    Bool × IpConnectMap :=
  let (accepted, connectBlock) := connect (ipConnectMap clientIP) currentTime
  (accepted, Function.update ipConnectMap clientIP (some connectBlock))

/-- The map after a list of attempts, and the attempts with their answers. -/
def afterAttempts (attempts : List (UInt32 × Nat)) : IpConnectMap :=
  attempts.foldl (fun ipConnectMap a => (acceptConnection ipConnectMap a.1 a.2).2) fun _ => none

def answers : IpConnectMap → List (UInt32 × Nat) → List (UInt32 × Nat × Bool)
  | _, [] => []
  | ipConnectMap, (clientIP, currentTime) :: attempts =>
    (clientIP, currentTime, (acceptConnection ipConnectMap clientIP currentTime).1) ::
      answers (acceptConnection ipConnectMap clientIP currentTime).2 attempts

/-- The times and answers of the attempts of one address, in their order. -/
def answersOf (clientIP : UInt32) (attempts : List (UInt32 × Nat)) : List (Nat × Bool) :=
  Machine.own clientIP (answers (fun _ => none) attempts)

theorem acceptConnection_eq (ipConnectMap : IpConnectMap) (clientIP : UInt32) (currentTime : Nat) :
    acceptConnection ipConnectMap clientIP currentTime =
      ((connect (ipConnectMap clientIP) currentTime).1,
        Machine.next connect ipConnectMap (clientIP, currentTime)) := rfl

theorem answers_eq (ipConnectMap : IpConnectMap) (attempts : List (UInt32 × Nat)) :
    answers ipConnectMap attempts = Machine.keyedOutputs connect ipConnectMap attempts := by
  induction attempts generalizing ipConnectMap with
  | nil => rfl
  | cons a attempts ih => rw [answers, ih, Machine.keyedOutputs, acceptConnection_eq]

theorem answersOf_eq (clientIP : UInt32) (attempts : List (UInt32 × Nat)) :
    answersOf clientIP attempts =
      Machine.outputs connect none (Machine.own clientIP attempts) := by
  rw [answersOf, answers_eq, Machine.own_keyedOutputs]

/-! ## One address -/

variable {connectBlock : ConnectBlock} {currentTime : Nat} {times : List Nat}

theorem connect_blocked (h : currentTime < connectBlock.blockTime) :
    connect (some connectBlock) currentTime =
      (false, { connectBlock with blockTime := connectBlock.blockTime + 250 }) := by
  rw [connect, if_pos h]

/-- After an accepted attempt the counter is below the limit, and the address is not blocked. -/
theorem connect_accepted {entry : Option ConnectBlock}
    (hcount : ∀ b, entry = some b → b.count ≤ 5)
    (h : (connect entry currentTime).1 = true) :
    (connect entry currentTime).2.count ≤ 5 ∧
      (connect entry currentTime).2.lastAttempt = currentTime ∧
      (connect entry currentTime).2.blockTime ≤ currentTime := by
  cases entry with
  | none => exact ⟨(by decide : 1 ≤ 5), rfl, Nat.zero_le _⟩
  | some b =>
    have hb := hcount b rfl
    unfold connect at h ⊢
    dsimp only at h ⊢
    split_ifs at h ⊢ <;> simp_all

theorem connect_count (entry : Option ConnectBlock) (currentTime : Nat)
    (hcount : ∀ b, entry = some b → b.count ≤ 5) : (connect entry currentTime).2.count ≤ 5 := by
  cases entry with
  | none => exact (by decide : 1 ≤ 5)
  | some b =>
    have hb := hcount b rfl
    unfold connect
    dsimp only
    split_ifs <;> simp_all

theorem after_count (entry : Option ConnectBlock) (times : List Nat)
    (hcount : ∀ b, entry = some b → b.count ≤ 5) :
    ∀ b, Machine.after connect entry times = some b → b.count ≤ 5 := by
  induction times generalizing entry with
  | nil => exact hcount
  | cons t times ih =>
    refine ih _ fun b hb => ?_
    rw [← Option.some.inj hb]
    exact connect_count entry t hcount

/-- A quick attempt that is accepted raises the counter. -/
theorem connect_quick (hfree : connectBlock.blockTime ≤ currentTime)
    (hgap : currentTime ≤ connectBlock.lastAttempt + 500)
    (h : (connect (some connectBlock) currentTime).1 = true) :
    connectBlock.count + 1 ≤ 5 ∧ connect (some connectBlock) currentTime =
      (true, { lastAttempt := currentTime, blockTime := connectBlock.blockTime,
               count := connectBlock.count + 1 }) := by
  have hdiff : (currentTime : Int) - connectBlock.lastAttempt ≤ 500 := by omega
  unfold connect at h ⊢
  dsimp only at h ⊢
  rw [if_neg (by omega), if_pos (by omega)] at h ⊢
  split_ifs at h ⊢ with hcount
  exact ⟨by omega, rfl⟩

/-- Accepted attempts in quick succession are few: each raises the counter. -/
theorem quick_accepted (connectBlock : ConnectBlock)
    (hfree : connectBlock.blockTime ≤ connectBlock.lastAttempt)
    (hcount : connectBlock.count ≤ 5)
    (hgaps : (connectBlock.lastAttempt :: times).IsChain fun s t => s ≤ t ∧ t ≤ s + 500)
    (h : ∀ a ∈ Machine.outputs connect (some connectBlock) times, a.2 = true) :
    connectBlock.count + times.length ≤ 5 := by
  induction times generalizing connectBlock with
  | nil => exact hcount
  | cons t times ih =>
    obtain ⟨⟨hle, hgap⟩, hrest⟩ := List.isChain_cons_cons.mp hgaps
    rw [Machine.outputs] at h
    have haccepted := h _ List.mem_cons_self
    obtain ⟨hlt, heq⟩ := connect_quick (by omega) hgap haccepted
    have := ih { lastAttempt := t, blockTime := connectBlock.blockTime,
                 count := connectBlock.count + 1 } (by simp; omega) hlt hrest
      fun a ha => h a (List.mem_cons_of_mem _ (by rw [heq]; exact ha))
    simp only at this
    simp only [List.length_cons]
    omega

/-- Slow attempts are all accepted. -/
theorem slow_accepted (connectBlock : ConnectBlock) (hfree : connectBlock.blockTime = 0)
    (hgaps : (connectBlock.lastAttempt :: times).IsChain fun s t => s + 500 < t) :
    ∀ a ∈ Machine.outputs connect (some connectBlock) times, a.2 = true := by
  induction times generalizing connectBlock with
  | nil => simp [Machine.outputs]
  | cons t times ih =>
    obtain ⟨hgap, hrest⟩ := List.isChain_cons_cons.mp hgaps
    have hslow : ¬ (t : Int) - connectBlock.lastAttempt ≤ 500 := by omega
    have hconnect : (connect (some connectBlock) t).1 = true ∧
        (connect (some connectBlock) t).2.blockTime = 0 ∧
        (connect (some connectBlock) t).2.lastAttempt = t := by
      unfold connect
      dsimp only
      rw [if_neg (by omega)]
      split_ifs <;> simp_all
    rw [Machine.outputs]
    intro a ha
    rcases List.mem_cons.mp ha with rfl | ha
    · exact hconnect.1
    · refine ih _ hconnect.2.1 ?_ a ha
      rw [hconnect.2.2]
      exact hrest

/-- Of seven attempts in quick succession one is refused. -/
theorem seven_quick {entry : Option ConnectBlock} (hcount : ∀ b, entry = some b → b.count ≤ 5)
    (hlength : times.length = 7) (hgaps : times.IsChain fun s t => s ≤ t ∧ t ≤ s + 500) :
    ∃ a ∈ Machine.outputs connect entry times, a.2 = false := by
  by_contra hnone
  have hall : ∀ a ∈ Machine.outputs connect entry times, a.2 = true := fun a ha => by
    by_contra hrefused
    exact hnone ⟨a, ha, by simpa using hrefused⟩
  cases times with
  | nil => cases hlength
  | cons t times =>
    rw [Machine.outputs] at hall
    have hfirst : (connect entry t).1 = true := hall _ List.mem_cons_self
    obtain ⟨hle, hlast, hfree⟩ := connect_accepted hcount hfirst
    have hquick := quick_accepted (connect entry t).2 (by rw [hlast]; exact hfree)
      hle (by rw [hlast]; exact hgaps) fun a ha => hall a (List.mem_cons_of_mem _ ha)
    simp only [List.length_cons] at hlength
    omega

theorem own_sorted {attempts : List (UInt32 × Nat)} (clientIP : UInt32)
    (h : attempts.Pairwise fun a b => a.2 ≤ b.2) :
    (Machine.own clientIP attempts).Pairwise (· ≤ ·) := by
  unfold Machine.own
  exact List.pairwise_map.mpr (h.sublist List.filter_sublist)

theorem isChain_and {α : Type*} {R S : α → α → Prop} {l : List α} (hR : l.IsChain R)
    (hS : l.IsChain S) : l.IsChain fun a b => R a b ∧ S a b := by
  induction l with
  | nil => exact .nil
  | cons a l ih =>
    cases l with
    | nil => exact .singleton a
    | cons b l =>
      obtain ⟨hab, hR⟩ := List.isChain_cons_cons.mp hR
      obtain ⟨hab', hS⟩ := List.isChain_cons_cons.mp hS
      exact .cons_cons ⟨hab, hab'⟩ (ih hR hS)

/-! ## All addresses -/

/-- In every run: of seven consecutive attempts of an address, each at most 500 ms after the one
before, one is refused; an attempt while the address is blocked is refused and the block does not
get shorter; an address that waits more than 500 ms every time is never refused; and the answers to
an address are those it would get alone. -/
theorem answersOf_sound (attempts : List (UInt32 × Nat)) (clientIP : UInt32)
    (hsorted : attempts.Pairwise fun a b => a.2 ≤ b.2) :
    (∀ before window later, answersOf clientIP attempts = before ++ window ++ later →
      window.length = 7 → window.IsChain (fun a b => b.1 - a.1 ≤ 500) →
      ∃ a ∈ window, a.2 = false) ∧
    (∀ history currentTime rest connectBlock,
      attempts = history ++ (clientIP, currentTime) :: rest →
      afterAttempts history clientIP = some connectBlock →
      currentTime < connectBlock.blockTime →
      (acceptConnection (afterAttempts history) clientIP currentTime).1 = false ∧
        ∃ connectBlock', afterAttempts (history ++ [(clientIP, currentTime)]) clientIP =
          some connectBlock' ∧ connectBlock.blockTime ≤ connectBlock'.blockTime) ∧
    ((answersOf clientIP attempts).IsChain (fun a b => 500 < b.1 - a.1) →
      ∀ a ∈ answersOf clientIP attempts, a.2 = true) ∧
    answersOf clientIP attempts =
      answersOf clientIP (attempts.filter fun a => a.1 = clientIP) := by
  refine ⟨fun before window later hsplit hlength hgaps => ?_,
    fun history currentTime rest connectBlock hattempts hblock hblocked => ?_, fun hgaps => ?_, ?_⟩
  · rw [answersOf_eq, List.append_assoc] at hsplit
    obtain ⟨htimes, hrest⟩ := Machine.outputs_split connect hsplit
    obtain ⟨hcut, hwindow⟩ : _ ∧ Machine.outputs connect _ (window.map Prod.fst) = window := by
      have hmap : (window ++ later).map Prod.fst = window.map Prod.fst ++ later.map Prod.fst :=
        List.map_append
      refine ⟨hmap, ?_⟩
      rw [hmap, Machine.outputs_append] at hrest
      exact (List.append_inj hrest (by simp)).1
    have hown := own_sorted clientIP hsorted
    rw [htimes, hcut] at hown
    have hmono : (window.map Prod.fst).Pairwise (· ≤ ·) :=
      (List.pairwise_append.mp (List.pairwise_append.mp hown).2.1).1
    have hquick : (window.map Prod.fst).IsChain fun s t => t - s ≤ 500 :=
      (List.isChain_map (R := fun s t => t - s ≤ 500) Prod.fst).mpr hgaps
    have hchain : (window.map Prod.fst).IsChain fun s t => s ≤ t ∧ t ≤ s + 500 :=
      (isChain_and hmono.isChain hquick).imp fun s t hst => ⟨hst.1, by have := hst.2; omega⟩
    have hcount := after_count none (before.map Prod.fst) fun b hb => nomatch hb
    obtain ⟨a, ha, hrefused⟩ := seven_quick hcount (by simpa using hlength) hchain
    exact ⟨a, hwindow ▸ ha, hrefused⟩
  · constructor
    · rw [acceptConnection_eq, hblock, connect_blocked hblocked]
    · refine ⟨{ connectBlock with blockTime := connectBlock.blockTime + 250 }, ?_, by simp⟩
      rw [afterAttempts, List.foldl_append, ← afterAttempts]
      change Machine.next connect (afterAttempts history) (clientIP, currentTime) clientIP = _
      rw [Machine.next, Function.update_self, hblock, connect_blocked hblocked]
  · have htimes : (Machine.own clientIP attempts).IsChain fun s t => s + 500 < t := by
      rw [← Machine.outputs_map_fst connect none (Machine.own clientIP attempts),
        ← answersOf_eq]
      exact (List.isChain_map (R := fun s t => s + 500 < t) Prod.fst).mpr
        (hgaps.imp fun a b hab => by omega)
    rw [answersOf_eq]
    cases hown : Machine.own clientIP attempts with
    | nil => simp [Machine.outputs]
    | cons t times =>
      rw [hown] at htimes
      rw [Machine.outputs]
      intro a ha
      rcases List.mem_cons.mp ha with rfl | ha
      · rfl
      · exact slow_accepted (connect none t).2 rfl htimes a ha
  · rw [answersOf_eq, answersOf_eq]
    simp [Machine.own]

/-! Six quick attempts of an address, between them one of another address, and one too early. -/

def hammering : List (UInt32 × Nat) :=
  [(7, 1000), (7, 1100), (9, 1150), (7, 1200), (7, 1300), (7, 1400), (7, 1500), (7, 2000)]

theorem answersOf_sound_hammering :
    (∃ a ∈ answersOf 7 hammering, a.2 = false) ∧
    (acceptConnection (afterAttempts (hammering.take 7)) 7 2000).1 = false ∧
    ∀ a ∈ answersOf 9 hammering, a.2 = true := by
  have hsorted : hammering.Pairwise fun a b => a.2 ≤ b.2 := by decide
  refine ⟨?_, ?_, (answersOf_sound hammering 9 hsorted).2.2.1 (by decide)⟩
  · obtain ⟨a, ha, hrefused⟩ := (answersOf_sound hammering 7 hsorted).1 [] (answersOf 7 hammering) []
      (by simp) (by decide) (by decide)
    exact ⟨a, ha, hrefused⟩
  · exact ((answersOf_sound hammering 7 hsorted).2.1 (hammering.take 7) 2000 []
      ⟨1500, 4500, 0⟩ (by decide) (by decide) (by decide)).1

end Ban

end Eloth
