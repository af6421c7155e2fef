import Mathlib.Data.List.Perm.Basic
import Mathlib.Data.List.Nodup
import Mathlib.Logic.Function.Basic

/-!
# Ledgers of things that are handed around

A `Ledger κ β` accounts for items `β` that are issued one after the other and then handed from one
place `k : κ` to another.  Each item has a token, the number of items issued before it; every place
has its tokens in an order of its own.  That a token is in exactly one place, once, is kept by the
fields, so no sequence of hand-overs can lose an item or duplicate one
(`Ledger.existsUnique_place`).

`transfer` is the general hand-over.  `move` takes the first tokens of a place to the end of
another, `moveToFront` takes all of them to its front.  `Holds k xs` says what the tokens at `k`
stand for; its rules say what a hand-over does to it.
-/

namespace CloudGame.Lib

structure Ledger (κ β : Type) where
  /-- What was issued; an item's index is its token. -/
  items : List β
  tokens : κ → List Nat
  place : Nat → κ
  nodup : ∀ k, (tokens k).Nodup
  mem : ∀ k t, t ∈ tokens k ↔ t < items.length ∧ place t = k

namespace Ledger

variable {κ β : Type}

/-- Every token is in exactly one place. -/
theorem existsUnique_place (L : Ledger κ β) {t : Nat} (h : t < L.items.length) :
    ∃! k, t ∈ L.tokens k :=
  ⟨L.place t, (L.mem _ t).mpr ⟨h, rfl⟩, fun k hk => ((L.mem k t).mp hk).2.symm⟩

def empty (k : κ) : Ledger κ β where
  items := []
  tokens := fun _ => []
  place := fun _ => k
  nodup := fun _ => List.nodup_nil
  mem := fun _ t => ⟨nofun, fun h => absurd h.1 (Nat.not_lt_zero t)⟩

variable [DecidableEq κ]

/-- A new item, at `k`. -/
def issue (L : Ledger κ β) (k : κ) (x : β) : Ledger κ β where
  items := L.items ++ [x]
  tokens := Function.update L.tokens k (L.tokens k ++ [L.items.length])
  place := Function.update L.place L.items.length k
  nodup := by
    intro k'
    by_cases he : k' = k
    · subst he
      rw [Function.update_self, List.nodup_append]
      refine ⟨L.nodup k', List.nodup_singleton _, fun t ht u hu => ?_⟩
      rw [List.mem_singleton.mp hu]
      exact Nat.ne_of_lt ((L.mem k' t).mp ht).1
    · rw [Function.update_of_ne he]
      exact L.nodup k'
  mem := by
    intro k' t
    rw [List.length_append, List.length_singleton]
    by_cases ht : t = L.items.length
    · subst ht
      have hnew : ∀ k'', L.items.length ∉ L.tokens k'' := fun k'' hmem =>
        absurd ((L.mem k'' _).mp hmem).1 (Nat.lt_irrefl _)
      rw [Function.update_self]
      by_cases he : k' = k
      · subst he
        simp
      · rw [Function.update_of_ne he]
        exact ⟨fun hmem => absurd hmem (hnew k'), fun h => absurd h.2.symm he⟩
    · rw [Function.update_of_ne ht]
      have hlt : t < L.items.length + 1 ↔ t < L.items.length := by omega
      by_cases he : k' = k
      · subst he
        rw [Function.update_self, List.mem_append, List.mem_singleton, L.mem, hlt]
        simp [ht]
      · rw [Function.update_of_ne he, L.mem, hlt]

/-- Tokens at `k` are handed to `k'`. -/
def transfer (L : Ledger κ β) (k k' : κ) (hne : k ≠ k') (moved kept arrived : List Nat)
    (hsplit : (L.tokens k).Perm (moved ++ kept)) (harrive : arrived.Perm (moved ++ L.tokens k')) :
    Ledger κ β where
  items := L.items
  tokens := Function.update (Function.update L.tokens k kept) k' arrived
  place := fun t => if t ∈ moved then k' else L.place t
  nodup := by
    have hall := List.nodup_append.mp (hsplit.nodup_iff.mp (L.nodup k))
    intro k''
    by_cases he' : k'' = k'
    · subst he'
      rw [Function.update_self, harrive.nodup_iff, List.nodup_append]
      refine ⟨hall.1, L.nodup k'', fun t ht u hu heq => ?_⟩
      subst heq
      have hk : t ∈ L.tokens k := hsplit.mem_iff.mpr (List.mem_append_left _ ht)
      exact hne (((L.mem k t).mp hk).2.symm.trans ((L.mem k'' t).mp hu).2)
    · rw [Function.update_of_ne he']
      by_cases he : k'' = k
      · subst he
        rw [Function.update_self]
        exact hall.2.1
      · rw [Function.update_of_ne he]
        exact L.nodup k''
  mem := by
    have hall := List.nodup_append.mp (hsplit.nodup_iff.mp (L.nodup k))
    have hat : ∀ t, t ∈ moved ++ kept ↔ t < L.items.length ∧ L.place t = k := fun t => by
      rw [← hsplit.mem_iff, L.mem]
    intro k'' t
    by_cases hm : t ∈ moved
    · have hk := (hat t).mp (List.mem_append_left _ hm)
      rw [if_pos hm]
      by_cases he' : k'' = k'
      · subst he'
        rw [Function.update_self, harrive.mem_iff]
        exact ⟨fun _ => ⟨hk.1, rfl⟩, fun _ => List.mem_append_left _ hm⟩
      · rw [Function.update_of_ne he']
        refine ⟨fun h => ?_, fun h => absurd h.2.symm he'⟩
        by_cases he : k'' = k
        · subst he
          rw [Function.update_self] at h
          exact absurd rfl (hall.2.2 t hm t h)
        · rw [Function.update_of_ne he, L.mem, hk.2] at h
          exact absurd h.2.symm he
    · rw [if_neg hm]
      by_cases he' : k'' = k'
      · subst he'
        rw [Function.update_self, harrive.mem_iff, List.mem_append, L.mem]
        exact ⟨fun h => h.resolve_left hm, Or.inr⟩
      · rw [Function.update_of_ne he']
        by_cases he : k'' = k
        · subst he
          rw [Function.update_self, ← hat t, List.mem_append]
          exact ⟨Or.inr, fun h => h.resolve_left hm⟩
        · rw [Function.update_of_ne he, L.mem]

/-- The first `n` tokens of `k` go to the end of `k'`. -/
def move (L : Ledger κ β) (n : Nat) (k k' : κ) (hne : k ≠ k') : Ledger κ β :=
  L.transfer k k' hne ((L.tokens k).take n) ((L.tokens k).drop n)
    (L.tokens k' ++ (L.tokens k).take n)
    (by rw [List.take_append_drop]) List.perm_append_comm

/-- All tokens of `k` go to the front of `k'`. -/
def moveToFront (L : Ledger κ β) (k k' : κ) (hne : k ≠ k') : Ledger κ β :=
  L.transfer k k' hne (L.tokens k) [] (L.tokens k ++ L.tokens k') (by rw [List.append_nil])
    (List.Perm.refl _)

section Tokens

variable (L : Ledger κ β) {k k' k'' : κ} (n : Nat) (hne : k ≠ k')

theorem tokens_issue_self (x : β) : (L.issue k x).tokens k = L.tokens k ++ [L.items.length] :=
  Function.update_self ..

theorem tokens_issue_of_ne (x : β) (h : k' ≠ k) : (L.issue k x).tokens k' = L.tokens k' :=
  Function.update_of_ne h ..

theorem tokens_move_from : (L.move n k k' hne).tokens k = (L.tokens k).drop n := by
  show Function.update (Function.update L.tokens k _) k' _ k = _
  rw [Function.update_of_ne hne, Function.update_self]

theorem tokens_move_to : (L.move n k k' hne).tokens k' = L.tokens k' ++ (L.tokens k).take n :=
  Function.update_self ..

theorem tokens_move_of_ne (h : k'' ≠ k) (h' : k'' ≠ k') :
    (L.move n k k' hne).tokens k'' = L.tokens k'' := by
  show Function.update (Function.update L.tokens k _) k' _ k'' = _
  rw [Function.update_of_ne h', Function.update_of_ne h]

theorem tokens_moveToFront_from : (L.moveToFront k k' hne).tokens k = [] := by
  show Function.update (Function.update L.tokens k _) k' _ k = _
  rw [Function.update_of_ne hne, Function.update_self]

theorem tokens_moveToFront_to : (L.moveToFront k k' hne).tokens k' = L.tokens k ++ L.tokens k' :=
  Function.update_self ..

theorem tokens_moveToFront_of_ne (h : k'' ≠ k) (h' : k'' ≠ k') :
    (L.moveToFront k k' hne).tokens k'' = L.tokens k'' := by
  show Function.update (Function.update L.tokens k _) k' _ k'' = _
  rw [Function.update_of_ne h', Function.update_of_ne h]

theorem tokens_move : (L.move n k k' hne).tokens k'' =
    if k'' = k' then L.tokens k' ++ (L.tokens k).take n
    else if k'' = k then (L.tokens k).drop n else L.tokens k'' := by
  by_cases he' : k'' = k'
  · rw [if_pos he', he', tokens_move_to]
  · by_cases he : k'' = k
    · rw [if_neg he', if_pos he, he, tokens_move_from]
    · rw [if_neg he', if_neg he, tokens_move_of_ne L n hne he he']

theorem tokens_moveToFront : (L.moveToFront k k' hne).tokens k'' =
    if k'' = k' then L.tokens k ++ L.tokens k' else if k'' = k then [] else L.tokens k'' := by
  by_cases he' : k'' = k'
  · rw [if_pos he', he', tokens_moveToFront_to]
  · by_cases he : k'' = k
    · rw [if_neg he', if_pos he, he, tokens_moveToFront_from]
    · rw [if_neg he', if_neg he, tokens_moveToFront_of_ne L hne he he']

/-- A token is where it was, or has just been handed over. -/
theorem mem_tokens_move {t : Nat} (h : t ∈ (L.move n k k' hne).tokens k'') :
    t ∈ L.tokens k'' ∨ k'' = k' ∧ t ∈ (L.tokens k).take n := by
  by_cases he' : k'' = k'
  · subst he'
    rw [tokens_move_to] at h
    exact (List.mem_append.mp h).imp_right fun ht => ⟨rfl, ht⟩
  · left
    by_cases he : k'' = k
    · subst he
      rw [tokens_move_from] at h
      exact List.mem_of_mem_drop h
    · rwa [tokens_move_of_ne L n hne he he'] at h

theorem mem_tokens_moveToFront {t : Nat} (h : t ∈ (L.moveToFront k k' hne).tokens k'') :
    t ∈ L.tokens k'' ∨ k'' = k' ∧ t ∈ L.tokens k := by
  by_cases he' : k'' = k'
  · subst he'
    rw [tokens_moveToFront_to] at h
    exact (List.mem_append.mp h).symm.imp_right fun ht => ⟨rfl, ht⟩
  · left
    by_cases he : k'' = k
    · subst he
      rw [tokens_moveToFront_from] at h
      cases h
    · rwa [tokens_moveToFront_of_ne L hne he he'] at h

end Tokens

/-! ## What a place holds -/

/-- The tokens at `k` stand for `xs`, in their order. -/
def Holds (L : Ledger κ β) (k : κ) (xs : List β) : Prop :=
  (L.tokens k).map (fun t => L.items[t]?) = xs.map some

namespace Holds

variable {L : Ledger κ β} {k k' k'' : κ} {xs ys : List β}

omit [DecidableEq κ] in
theorem length_eq (h : L.Holds k xs) : (L.tokens k).length = xs.length := by
  have hlen := congrArg List.length h
  rwa [List.length_map, List.length_map] at hlen

omit [DecidableEq κ] in
theorem unique (h : L.Holds k xs) (h' : L.Holds k ys) : xs = ys :=
  List.map_injective_iff.mpr (fun _ _ => Option.some.inj) (h.symm.trans h')

omit [DecidableEq κ] in
/-- What a token of the place stands for. -/
theorem item (h : L.Holds k xs) {t : Nat} (ht : t ∈ L.tokens k) :
    ∃ x ∈ xs, L.items[t]? = some x := by
  have hmem : L.items[t]? ∈ xs.map some := by
    rw [← h]
    exact List.mem_map_of_mem ht
  obtain ⟨x, hx, he⟩ := List.mem_map.mp hmem
  exact ⟨x, hx, he.symm⟩

/-- The items of old tokens stay as they are. -/
theorem map_issue (x : β) (k₀ : κ) :
    (L.tokens k).map (fun t => (L.issue k₀ x).items[t]?) =
      (L.tokens k).map fun t => L.items[t]? := by
  refine List.map_congr_left fun t ht => ?_
  exact List.getElem?_append_left ((L.mem k t).mp ht).1

theorem issue_self (h : L.Holds k xs) (x : β) : (L.issue k x).Holds k (xs ++ [x]) := by
  unfold Holds
  rw [tokens_issue_self, List.map_append, map_issue, h, List.map_append]
  congr 1
  show [(L.items ++ [x])[L.items.length]?] = [some x]
  rw [List.getElem?_concat_length]

theorem issue_of_ne (h : L.Holds k' xs) (x : β) (hne : k' ≠ k) : (L.issue k x).Holds k' xs := by
  unfold Holds
  rw [tokens_issue_of_ne L x hne, map_issue]
  exact h

section Move

variable {n : Nat} {hne : k ≠ k'}

theorem move_from (h : L.Holds k xs) : (L.move n k k' hne).Holds k (xs.drop n) := by
  unfold Holds at h ⊢
  rw [tokens_move_from, List.map_drop, List.map_drop]
  exact congrArg (List.drop n) h

theorem move_to (h : L.Holds k xs) (h' : L.Holds k' ys) :
    (L.move n k k' hne).Holds k' (ys ++ xs.take n) := by
  unfold Holds at h h' ⊢
  rw [tokens_move_to, List.map_append, List.map_append, List.map_take, List.map_take]
  exact congrArg₂ (· ++ ·) h' (congrArg (List.take n) h)

theorem move_of_ne (h : L.Holds k'' xs) (hk : k'' ≠ k) (hk' : k'' ≠ k') :
    (L.move n k k' hne).Holds k'' xs := by
  unfold Holds
  rw [tokens_move_of_ne L n hne hk hk']
  exact h

theorem moveToFront_from : (L.moveToFront k k' hne).Holds k [] := by
  unfold Holds
  rw [tokens_moveToFront_from]
  rfl

theorem moveToFront_to (h : L.Holds k xs) (h' : L.Holds k' ys) :
    (L.moveToFront k k' hne).Holds k' (xs ++ ys) := by
  unfold Holds at h h' ⊢
  rw [tokens_moveToFront_to, List.map_append, List.map_append]
  exact congrArg₂ (· ++ ·) h h'

theorem moveToFront_of_ne (h : L.Holds k'' xs) (hk : k'' ≠ k) (hk' : k'' ≠ k') :
    (L.moveToFront k k' hne).Holds k'' xs := by
  unfold Holds
  rw [tokens_moveToFront_of_ne L hne hk hk']
  exact h

end Move

end Holds

end Ledger

end CloudGame.Lib
