import Mathlib.Data.List.Basic

/-!
# Code that fails and has a state

`Wp m ok err s` is the weakest precondition of `m`: run from `s` it ends in a value and a state that
satisfy `ok`, or with an error that satisfies `err` in the state then.  A loop over `List.range n`
is proved by an invariant of the number of rounds, `wp_forM_range`.
-/

namespace CloudGame.Lib

variable {ε σ α β : Type}

def Wp (m : ExceptT ε (StateM σ) α) (ok : α → σ → Prop) (err : ε → σ → Prop) (s : σ) : Prop :=
  match Id.run (StateT.run (ExceptT.run m) s) with
  | (.ok a, s') => ok a s'
  | (.error e, s') => err e s'

section Rules

variable {ok ok' : α → σ → Prop} {err : ε → σ → Prop} {s : σ}

theorem wp_pure {a : α} (h : ok a s) : Wp (pure a) ok err s := h

theorem wp_throw {e : ε} (h : err e s) :
    Wp (throw e : ExceptT ε (StateM σ) α) ok err s := h

theorem wp_get {ok : σ → σ → Prop} (h : ok s s) :
    Wp (get : ExceptT ε (StateM σ) σ) ok err s := h

theorem wp_set {ok : PUnit → σ → Prop} {s' : σ} (h : ok ⟨⟩ s') :
    Wp (set s' : ExceptT ε (StateM σ) PUnit) ok err s := h

theorem wp_modify {ok : PUnit → σ → Prop} {f : σ → σ} (h : ok ⟨⟩ (f s)) :
    Wp (modify f : ExceptT ε (StateM σ) PUnit) ok err s := h

theorem wp_bind {m : ExceptT ε (StateM σ) β} {f : β → ExceptT ε (StateM σ) α}
    (h : Wp m (fun b s' => Wp (f b) ok err s') err s) : Wp (m >>= f) ok err s := by
  have hrun : Id.run (StateT.run (ExceptT.run (m >>= f)) s) =
      match Id.run (StateT.run (ExceptT.run m) s) with
      | (.ok b, s') => Id.run (StateT.run (ExceptT.run (f b)) s')
      | (.error e, s') => (.error e, s') := by
    show Id.run (StateT.run (ExceptT.run m >>= ExceptT.bindCont f) s) = _
    rw [StateT.run_bind]
    show (match Id.run (StateT.run (ExceptT.run m) s) with
      | (b, s') => Id.run (StateT.run (ExceptT.bindCont f b) s')) = _
    rcases Id.run (StateT.run (ExceptT.run m) s) with ⟨b | b, s'⟩ <;> rfl
  unfold Wp at h ⊢
  rw [hrun]
  rcases hm : Id.run (StateT.run (ExceptT.run m) s) with ⟨e | b, s'⟩
  · rw [hm] at h
    exact h
  · rw [hm] at h
    exact h

theorem Wp.mono {m : ExceptT ε (StateM σ) α} (h : Wp m ok err s)
    (himp : ∀ a s', ok a s' → ok' a s') : Wp m ok' err s := by
  unfold Wp at h ⊢
  rcases hm : Id.run (StateT.run (ExceptT.run m) s) with ⟨e | a, s'⟩
  · rw [hm] at h
    exact h
  · rw [hm] at h
    exact himp a s' h

/-- **Loop rule.**  Round `i` takes the invariant at `i` to the invariant at `i + 1`. -/
theorem wp_forM_range {n : Nat} {f : Nat → ExceptT ε (StateM σ) PUnit} {I : Nat → σ → Prop}
    (h0 : I 0 s) (hstep : ∀ i s', i < n → I i s' → Wp (f i) (fun _ => I (i + 1)) err s') :
    Wp ((List.range n).forM f) (fun _ => I n) err s := by
  induction n with
  | zero => exact h0
  | succ n ih =>
    rw [List.range_succ]
    show Wp (forM (List.range n ++ [n]) f) _ err s
    rw [List.forM_append]
    refine wp_bind ((ih fun i s' hi => hstep i s' (Nat.lt_succ_of_lt hi)).mono ?_)
    rintro _ s' hn
    refine wp_bind ((hstep n s' (Nat.lt_succ_self n) hn).mono ?_)
    rintro _ s'' hn'
    exact hn'

end Rules

end CloudGame.Lib
