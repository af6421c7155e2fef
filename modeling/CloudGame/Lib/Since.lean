import Mathlib.Data.List.Basic

/-!
# Logs and what holds since

A log is a list of events, newest first.  `Since start kept log` says that at some point an event
with `start` happened and every later event satisfies `kept`: "the last X was …, and no Y since".
`since_cons` is how it moves when an event is logged; invariants about histories use it alone, and
`since_append` where several events are logged or a log is also read from its old end, and
`Since.filterMap` where only some of the events are seen.
`Throughout P log` says `P` of every event and what was logged before it.
-/

namespace CloudGame.Lib

variable {ε : Type}

def Since (start kept : ε → Prop) (log : List ε) : Prop :=
  ∃ newer e older, log = newer ++ e :: older ∧ start e ∧ ∀ e' ∈ newer, kept e'

theorem not_since_nil (start kept : ε → Prop) : ¬ Since start kept [] := by
  rintro ⟨newer, e, older, h, -⟩
  cases newer <;> cases h

theorem since_cons {start kept : ε → Prop} {e : ε} {log : List ε} :
    Since start kept (e :: log) ↔ start e ∨ (kept e ∧ Since start kept log) := by
  constructor
  · rintro ⟨newer, e', older, h, hs, hk⟩
    cases newer with
    | nil =>
      simp only [List.nil_append, List.cons.injEq] at h
      exact Or.inl (h.1 ▸ hs)
    | cons n newer =>
      simp only [List.cons_append, List.cons.injEq] at h
      obtain ⟨rfl, rfl⟩ := h
      exact Or.inr ⟨hk e (List.mem_cons_self ..), newer, e', older, rfl, hs,
        fun x hx => hk x (List.mem_cons_of_mem _ hx)⟩
  · rintro (hs | ⟨hk, newer, e', older, rfl, hs, hk'⟩)
    · exact ⟨[], e, log, rfl, hs, fun x hx => by cases hx⟩
    · refine ⟨e :: newer, e', older, rfl, hs, fun x hx => ?_⟩
      rcases List.mem_cons.mp hx with rfl | hx
      · exact hk
      · exact hk' x hx

theorem Since.mono {start start' kept kept' : ε → Prop} {log : List ε} (h : Since start kept log)
    (hstart : ∀ e, start e → start' e) (hkept : ∀ e, kept e → kept' e) :
    Since start' kept' log := by
  obtain ⟨newer, e, older, rfl, hs, hk⟩ := h
  exact ⟨newer, e, older, rfl, hstart e hs, fun e' he' => hkept e' (hk e' he')⟩

/-- Of two logs, one after the other, the newer one tells unless all of it is kept. -/
theorem since_append {start kept : ε → Prop} {newer older : List ε} :
    Since start kept (newer ++ older) ↔
      Since start kept newer ∨ ((∀ e ∈ newer, kept e) ∧ Since start kept older) := by
  induction newer with
  | nil =>
    rw [List.nil_append]
    exact ⟨fun h => Or.inr ⟨nofun, h⟩, fun h => (h.resolve_left (not_since_nil _ _)).2⟩
  | cons e newer ih =>
    rw [List.cons_append, since_cons, since_cons, ih, List.forall_mem_cons, and_or_left, or_assoc,
      and_assoc]

/-- The oldest event tells if all later ones are kept. -/
theorem since_concat {start kept : ε → Prop} {log : List ε} {e : ε} :
    Since start kept (log ++ [e]) ↔
      Since start kept log ∨ ((∀ e' ∈ log, kept e') ∧ start e) := by
  rw [since_append, since_cons]
  have hnil := not_since_nil start kept
  constructor
  · rintro (h | ⟨hk, hs | ⟨-, h⟩⟩)
    · exact Or.inl h
    · exact Or.inr ⟨hk, hs⟩
    · exact absurd h hnil
  · rintro (h | ⟨hk, hs⟩)
    · exact Or.inl h
    · exact Or.inr ⟨hk, Or.inl hs⟩

/-- What a log tells, the events that are seen of it tell. -/
theorem Since.filterMap {δ : Type} {f : ε → Option δ} {start kept : ε → Prop}
    {start' kept' : δ → Prop} {log : List ε} (h : Since start kept log)
    (hstart : ∀ e, start e → ∃ d, f e = some d ∧ start' d)
    (hkept : ∀ e d, kept e → f e = some d → kept' d) : Since start' kept' (log.filterMap f) := by
  obtain ⟨newer, e, older, rfl, hs, hk⟩ := h
  obtain ⟨d, hd, hs'⟩ := hstart e hs
  refine ⟨newer.filterMap f, d, older.filterMap f, ?_, hs', fun d' hd' => ?_⟩
  · rw [List.filterMap_append, List.filterMap_cons_some hd]
  · obtain ⟨e', he', hf⟩ := List.mem_filterMap.mp hd'
    exact hkept e' d' (hk e' he') hf

/-- What was added to a log that has grown. -/
def grown (old new : List ε) : List ε := new.take (new.length - old.length)

@[simp] theorem grown_append (added old : List ε) : grown old (added ++ old) = added := by
  rw [grown, List.length_append, Nat.add_sub_cancel, List.take_left]

@[simp] theorem grown_self (log : List ε) : grown log log = [] := grown_append [] log

def Throughout (P : ε → List ε → Prop) (log : List ε) : Prop :=
  ∀ newer e older, log = newer ++ e :: older → P e older

theorem throughout_nil (P : ε → List ε → Prop) : Throughout P [] := by
  intro newer e older h
  cases newer <;> cases h

theorem throughout_cons {P : ε → List ε → Prop} {e : ε} {log : List ε} :
    Throughout P (e :: log) ↔ P e log ∧ Throughout P log := by
  constructor
  · intro h
    exact ⟨h [] e log rfl, fun newer e' older he => h (e :: newer) e' older (by rw [he]; rfl)⟩
  · rintro ⟨h, ht⟩ newer e' older he
    cases newer with
    | nil =>
      simp only [List.nil_append, List.cons.injEq] at he
      obtain ⟨rfl, rfl⟩ := he
      exact h
    | cons n newer =>
      simp only [List.cons_append, List.cons.injEq] at he
      exact ht newer e' older he.2

end CloudGame.Lib
