import Mathlib.Data.List.Basic
import Mathlib.Data.List.Induction
import Mathlib.Data.Set.Function

/-!
# Hash chains

A log committed to by one digest: the digest of the empty log is the hash of a seed, and every
entry extends the digest by the hash of a message of its own. The message of an entry may depend
on the log before it, for instance to link it to an earlier entry.

**Binding** (`HashChain.digest_injective`): if messages can be parsed and the hash has no collision
among the messages hashed for two logs, equal digests mean equal logs. Nothing else about the
hash is used, so the assumption is about finitely many messages.
-/

/-- The messages of a chain over entries `α`, with digests `D`. -/
structure HashChain (α M D : Type) where
  hash : M → D
  seed : M
  /-- the message of an entry, given the log before it -/
  entry : List α → α → M
  /-- the message that extends a digest -/
  extend : D → D → M
  extend_ne_seed : ∀ d e, extend d e ≠ seed
  extend_injective : ∀ {d e d' e'}, extend d e = extend d' e' → d = d' ∧ e = e'
  entry_injective : ∀ {log x log' x'}, entry log x = entry log' x' → x = x'

namespace HashChain

variable {α M D : Type} (C : HashChain α M D)

/-- The digest of a log given newest entry first. -/
def digestAux : List α → D
  | [] => C.hash C.seed
  | x :: log => C.hash (C.extend (digestAux log) (C.hash (C.entry log.reverse x)))

/-- The messages hashed for a log given newest entry first. -/
def messagesAux : List α → List M
  | [] => [C.seed]
  | x :: log => C.extend (C.digestAux log) (C.hash (C.entry log.reverse x))
      :: C.entry log.reverse x :: messagesAux log

/-- The digest of a log. -/
def digest (log : List α) : D := C.digestAux log.reverse

/-- All messages hashed on the way to the digest of a log. -/
def messages (log : List α) : List M := C.messagesAux log.reverse

@[simp] theorem digest_nil : C.digest [] = C.hash C.seed := rfl

@[simp] theorem digest_snoc (log : List α) (x : α) :
    C.digest (log ++ [x]) = C.hash (C.extend (C.digest log) (C.hash (C.entry log x))) := by
  rw [digest, List.reverse_append, List.reverse_singleton, List.singleton_append,
    digestAux, List.reverse_reverse]
  rfl

@[simp] theorem messages_snoc (log : List α) (x : α) :
    C.messages (log ++ [x]) =
      C.extend (C.digest log) (C.hash (C.entry log x)) :: C.entry log x :: C.messages log := by
  rw [messages, List.reverse_append, List.reverse_singleton, List.singleton_append,
    messagesAux, List.reverse_reverse]
  rfl

/-- No two different messages of the two logs have the same hash. -/
def CollisionFree (log log' : List α) : Prop :=
  Set.InjOn C.hash {m | m ∈ C.messages log ∨ m ∈ C.messages log'}

variable {C}

theorem CollisionFree.symm {log log' : List α} (h : C.CollisionFree log log') :
    C.CollisionFree log' log := by
  refine Set.InjOn.mono (fun m hm => ?_) h
  exact Or.symm hm

/-- The digest of the empty log is no other log's. -/
theorem CollisionFree.digest_snoc_ne_nil {log : List α} {x : α}
    (h : C.CollisionFree (log ++ [x]) []) : C.digest (log ++ [x]) ≠ C.digest [] := by
  intro heq
  rw [digest_snoc, digest_nil] at heq
  refine C.extend_ne_seed _ _ (h (Or.inl ?_) (Or.inr ?_) heq)
  · rw [messages_snoc]
    exact List.mem_cons_self
  · exact List.mem_singleton_self _

/-- **Binding**: where there are no collisions, the digest determines the log. -/
theorem digest_injective {log log' : List α} (hfree : C.CollisionFree log log')
    (heq : C.digest log = C.digest log') : log = log' := by
  induction log using List.reverseRecOn generalizing log' with
  | nil =>
    rcases List.eq_nil_or_concat' log' with rfl | ⟨front, x, rfl⟩
    · rfl
    · exact absurd heq.symm hfree.symm.digest_snoc_ne_nil
  | append_singleton log x ih =>
    rcases List.eq_nil_or_concat' log' with rfl | ⟨log', x', rfl⟩
    · exact absurd heq hfree.digest_snoc_ne_nil
    · -- peel the last entry off both logs, the outer hash before the inner one
      rw [digest_snoc, digest_snoc] at heq
      simp only [CollisionFree, messages_snoc, List.mem_cons] at hfree
      obtain ⟨hdigest, hentry⟩ := C.extend_injective (hfree (.inl (.inl rfl)) (.inr (.inl rfl)) heq)
      have hx := C.entry_injective (hfree (.inl (.inr (.inl rfl))) (.inr (.inr (.inl rfl))) hentry)
      have hlog := @ih log' (hfree.mono fun m hm => ?_) hdigest
      · rw [hlog, hx]
      · rcases hm with hm | hm
        · exact .inl (.inr (.inr hm))
        · exact .inr (.inr (.inr hm))

end HashChain
