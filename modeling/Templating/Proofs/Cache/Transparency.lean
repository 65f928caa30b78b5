import Mathlib.Data.List.Dedup
import Mathlib.Data.List.Induction
import Mathlib.Data.List.Perm.Basic
import Templating.Cache

/-!
**A cache cannot be told from compiling anew.**

Whatever was asked of a cache before, a template is answered as if it were compiled on the spot.
The cache looks at the delimiters and the text of a template only, so this rests on the other
settings being the same for all requests.  Everything else holds without that: failures leave no
trace, a template that is asked for again is answered by the same entry until the cache is cleared,
and the cache has one entry for each template that was compiled since then.

Main definitions:

* `Templating.Request`, `Templating.Cache.run` — what is asked of a cache, and the cache afterwards;
* `Templating.Request.Agree` — requests whose settings differ in their delimiters only;
* `Templating.Request.compiled` — the keys of the templates that were compiled since the cache was
  cleared last, found out without the cache;
* `Templating.Cache.Remembers` — what a cache holds after some requests;
* `Templating.Cache.Transparent` — **nothing tells the cache from compiling anew**.

Main results:

* `Templating.Cache.compile_cases` — what a cache does when it is asked for a template;
* `Templating.Cache.remembers_run` — what a cache holds after any requests;
* `Templating.Cache.get?_foldl`, `Templating.Cache.Owns.foldl` — an entry stays until the cache is
  cleared, and its number is not given out again;
* `Templating.Cache.transparent_of_agree` — the answers of a cache.
-/

set_option autoImplicit false

namespace Templating

/-! ### Requests -/

/-- The settings with the delimiters left out. -/
def Settings.undelimited (s : Settings) : Settings := { s with customDelimiters := none }

theorem Settings.eq_of_undelimited {s s' : Settings} (h : s.undelimited = s'.undelimited)
    (hdelimiters : s.customDelimiters = s'.customDelimiters) : s = s' := by
  cases s with
  | mk =>
      cases s' with
      | mk =>
          simp only [undelimited, Settings.mk.injEq] at h hdelimiters ⊢
          exact ⟨hdelimiters, h.2⟩

/-- What is asked of a cache. -/
inductive Request where
  /-- A compiled template. -/
  | compile (settings : Settings) (template : String)
  /-- To forget everything. -/
  | clear

namespace Request

/-- Whether the cache is cleared. -/
def isClear : Request → Bool
  | clear => true
  | compile .. => false

/-- What a template is kept under, when it can be compiled. -/
def success? : Request → Option CacheKey
  | clear => none
  | compile settings template =>
      (Templating.compile settings template).toOption.map fun _ => Cache.key settings template

/-- **The templates that were compiled since the cache was cleared last**, each of them once. -/
def compiled (requests : List Request) : List CacheKey :=
  ((requests.reverse.takeWhile fun r => !r.isClear).filterMap success?).dedup

/-- **Requests whose settings agree**, except for their delimiters. -/
def Agree (requests : List Request) : Prop :=
  ∀ s t s' t', compile s t ∈ requests → compile s' t' ∈ requests →
    s.undelimited = s'.undelimited

theorem compiled_clear (requests : List Request) : compiled (requests ++ [clear]) = [] := by
  simp [compiled, isClear]

/-- A request for a template adds the template when it can be compiled. -/
theorem mem_compiled_compile {requests : List Request} {s : Settings} {t : String} {k : CacheKey} :
    k ∈ compiled (requests ++ [compile s t]) ↔
      success? (compile s t) = some k ∨ k ∈ compiled requests := by
  have hsplit : ((requests ++ [compile s t]).reverse.takeWhile fun r => !r.isClear) =
      compile s t :: (requests.reverse.takeWhile fun r => !r.isClear) := by
    simp [isClear]
  unfold compiled
  rw [hsplit, List.mem_dedup, List.mem_dedup, List.mem_filterMap, List.mem_filterMap]
  constructor
  · rintro ⟨r, hr, hk⟩
    rcases List.mem_cons.mp hr with rfl | hr
    · exact .inl hk
    · exact .inr ⟨r, hr, hk⟩
  · rintro (hk | ⟨r, hr, hk⟩)
    · exact ⟨_, List.mem_cons_self, hk⟩
    · exact ⟨r, List.mem_cons_of_mem _ hr, hk⟩

theorem success?_of_ok {s : Settings} {t : String} {c : Compiled}
    (h : Templating.compile s t = .ok c) :
    success? (compile s t) = some (Cache.key s t) := by
  simp [success?, h, Except.toOption]

theorem success?_of_error {s : Settings} {t : String} {e : CompileError}
    (h : Templating.compile s t = .error e) : success? (compile s t) = none := by
  simp [success?, h, Except.toOption]

theorem eq_key_of_success? {s : Settings} {t : String} {k : CacheKey}
    (h : success? (compile s t) = some k) : k = Cache.key s t := by
  obtain ⟨_, _, hk⟩ := Option.map_eq_some_iff.mp h
  exact hk.symm

end Request

/-! ### One request -/

/-- A key has a result exactly when it is among the keys. -/
theorem Memo.mem_map_fst_iff {κ α : Type} [DecidableEq κ] {m : Memo κ α} {key : κ} :
    key ∈ m.entries.map (·.1) ↔ ∃ value, m.get? key = some value := by
  rw [← Option.isSome_iff_exists]
  simp [Memo.get?, List.find?_isSome, and_comm]

namespace Cache

/-- The cache after a request. -/
def after (c : Cache) : Request → Cache
  | .compile settings template => (c.compile settings template).2
  | .clear => c.clear

/-- **The cache after some requests**, which was empty at first. -/
def run (requests : List Request) : Cache := requests.foldl after {}

theorem run_append (past requests : List Request) :
    run (past ++ requests) = requests.foldl after (run past) :=
  List.foldl_append

theorem run_concat (past : List Request) (r : Request) : run (past ++ [r]) = (run past).after r :=
  run_append past [r]

/-- **What a cache does when it is asked for a template**: the template is there, or it cannot be
compiled, or it is compiled and kept under the next number. -/
theorem compile_cases (c : Cache) (s : Settings) (t : String) :
    (∃ x, c.memo.get? (key s t) = some x ∧ c.compile s t = (.ok x, c)) ∨
    (c.memo.get? (key s t) = none ∧
      ((∃ e, Templating.compile s t = .error e ∧ c.compile s t = (.error e, c)) ∨
        ∃ compiled, Templating.compile s t = .ok compiled ∧
          c.compile s t = (.ok ⟨c.next, compiled⟩,
            ⟨c.memo.insert (key s t) ⟨c.next, compiled⟩, c.next + 1⟩))) := by
  unfold compile
  cases hget : c.memo.get? (key s t) with
  | some x => exact .inl ⟨x, rfl, rfl⟩
  | none =>
      refine .inr ⟨rfl, ?_⟩
      cases hcompile : Templating.compile s t with
      | error e => exact .inl ⟨e, rfl, rfl⟩
      | ok compiled => exact .inr ⟨compiled, rfl, rfl⟩

/-- What the memo has after an insertion. -/
theorem get?_insert_eq_some {m : Memo CacheKey CacheEntry} {k k' : CacheKey} {x x' : CacheEntry}
    (h : (m.insert k x).get? k' = some x') : k' = k ∧ x' = x ∨ m.get? k' = some x' := by
  by_cases hk : k' = k
  · subst hk
    rw [Memo.get?_insert_self] at h
    exact .inl ⟨rfl, (Option.some.inj h).symm⟩
  · rw [Memo.get?_insert_of_ne m x hk] at h
    exact .inr h

/-- A template that was answered is in the cache from then on. -/
theorem get?_of_compile_eq_ok {c : Cache} {s : Settings} {t : String} {x : CacheEntry}
    (h : (c.compile s t).1 = .ok x) : (c.compile s t).2.memo.get? (key s t) = some x := by
  rcases c.compile_cases s t with ⟨y, hget, heq⟩ | ⟨-, ⟨e, -, heq⟩ | ⟨compiled, -, heq⟩⟩
  · rw [heq] at h ⊢
    cases h
    exact hget
  · rw [heq] at h
    cases h
  · rw [heq] at h ⊢
    cases h
    exact Memo.get?_insert_self _ _ _

/-- A request that is no clearing keeps what is there. -/
theorem get?_after {c : Cache} {r : Request} (hr : r ≠ .clear) {k : CacheKey} {x : CacheEntry}
    (h : c.memo.get? k = some x) : (c.after r).memo.get? k = some x := by
  cases r with
  | clear => exact absurd rfl hr
  | compile s t =>
      change (c.compile s t).2.memo.get? k = some x
      rcases c.compile_cases s t with ⟨y, -, heq⟩ | ⟨hnone, ⟨e, -, heq⟩ | ⟨compiled, -, heq⟩⟩
      · rw [heq]
        exact h
      · rw [heq]
        exact h
      · have hne : k ≠ key s t := by
          rintro rfl
          rw [hnone] at h
          cases h
        rw [heq]
        exact (Memo.get?_insert_of_ne _ _ hne).trans h

/-- **An entry stays until the cache is cleared.** -/
theorem get?_foldl {k : CacheKey} {x : CacheEntry} : ∀ (requests : List Request) {c : Cache},
    .clear ∉ requests → c.memo.get? k = some x →
      (requests.foldl after c).memo.get? k = some x := by
  intro requests
  induction requests with
  | nil =>
      intro c _ h
      exact h
  | cons r requests ih =>
      intro c hclear h
      rw [List.mem_cons, not_or] at hclear
      exact ih hclear.2 (get?_after (fun hr => hclear.1 hr.symm) h)

/-! ### What a cache holds -/

/-- **What a cache holds after the requests `past`**: every entry comes from one of them, and the
keys are those of the templates that were compiled since the cache was cleared last. -/
structure Remembers (past : List Request) (c : Cache) : Prop where
  origin : ∀ k x, c.memo.get? k = some x → ∃ s t, .compile s t ∈ past ∧ key s t = k ∧
    Templating.compile s t = .ok x.compiled
  nodup : (c.memo.entries.map (·.1)).Nodup
  keys : ∀ k, k ∈ c.memo.entries.map (·.1) ↔ k ∈ Request.compiled past

/-- A request that changes nothing, and that asks for nothing new. -/
theorem Remembers.keep {past : List Request} {c : Cache} (h : Remembers past c) {s : Settings}
    {t : String}
    (hknown : ∀ k, Request.success? (.compile s t) = some k → k ∈ Request.compiled past) :
    Remembers (past ++ [.compile s t]) c where
  origin k x hx := by
    obtain ⟨s', t', hmem, hkey, hcompile⟩ := h.origin k x hx
    exact ⟨s', t', List.mem_append_left _ hmem, hkey, hcompile⟩
  nodup := h.nodup
  keys k := by
    rw [h.keys, Request.mem_compiled_compile]
    exact ⟨.inr, fun hk => hk.elim (hknown k) id⟩

/-- A template that is compiled and kept. -/
theorem Remembers.insert {past : List Request} {c : Cache} (h : Remembers past c) {s : Settings}
    {t : String} {compiled : Compiled} (hnone : c.memo.get? (key s t) = none)
    (hcompile : Templating.compile s t = .ok compiled) (number next : Nat) :
    Remembers (past ++ [.compile s t])
      ⟨c.memo.insert (key s t) ⟨number, compiled⟩, next⟩ where
  origin k x hx := by
    rcases get?_insert_eq_some hx with ⟨rfl, rfl⟩ | hx
    · exact ⟨s, t, by simp, rfl, hcompile⟩
    · obtain ⟨s', t', hmem, hkey, hcompile'⟩ := h.origin k x hx
      exact ⟨s', t', List.mem_append_left _ hmem, hkey, hcompile'⟩
  nodup := by
    refine List.nodup_cons.mpr ⟨fun hmem => ?_, h.nodup⟩
    obtain ⟨x, hx⟩ := Memo.mem_map_fst_iff.mp hmem
    rw [hnone] at hx
    cases hx
  keys k := by
    rw [Request.mem_compiled_compile, Request.success?_of_ok hcompile, ← h.keys, Option.some.injEq,
      eq_comm]
    exact List.mem_cons

theorem Remembers.after {past : List Request} {c : Cache} (h : Remembers past c) (r : Request) :
    Remembers (past ++ [r]) (c.after r) := by
  cases r with
  | clear =>
      refine ⟨fun k x hx => ?_, List.nodup_nil, fun k => ?_⟩
      · cases hx
      · rw [Request.compiled_clear]
        rfl
  | compile s t =>
      change Remembers _ (c.compile s t).2
      rcases c.compile_cases s t with ⟨x, hx, heq⟩ | ⟨hnone, ⟨e, hcompile, heq⟩ |
        ⟨compiled, hcompile, heq⟩⟩
      · rw [heq]
        refine h.keep fun k hk => ?_
        rw [Request.eq_key_of_success? hk, ← h.keys]
        exact Memo.mem_map_fst_iff.mpr ⟨x, hx⟩
      · rw [heq]
        refine h.keep fun k hk => ?_
        rw [Request.success?_of_error hcompile] at hk
        cases hk
      · rw [heq]
        exact h.insert hnone hcompile _ _

/-- **What a cache holds after any requests.** -/
theorem remembers_run (requests : List Request) : Remembers requests (run requests) := by
  induction requests using List.reverseRecOn with
  | nil =>
      refine ⟨fun k x hx => ?_, List.nodup_nil, fun k => ?_⟩
      · cases hx
      · rfl
  | append_singleton past r ih =>
      rw [run_concat]
      exact ih.after r

/-- There is one entry for each template that was compiled. -/
theorem Remembers.size_eq {past : List Request} {c : Cache} (h : Remembers past c) :
    c.size = (Request.compiled past).length := by
  have hperm : (c.memo.entries.map (·.1)).Perm (Request.compiled past) :=
    (List.perm_ext_iff_of_nodup h.nodup (List.nodup_dedup _)).mpr h.keys
  have hlength := hperm.length_eq
  rwa [List.length_map] at hlength

/-- A template is answered as if it were compiled on the spot. -/
theorem Remembers.map_compile {past : List Request} {c : Cache} (h : Remembers past c)
    {s : Settings} {t : String} (hagree : Request.Agree (past ++ [.compile s t])) :
    (c.compile s t).1.map (·.compiled) = Templating.compile s t := by
  rcases c.compile_cases s t with ⟨x, hx, heq⟩ | ⟨-, ⟨e, hcompile, heq⟩ |
    ⟨compiled, hcompile, heq⟩⟩
  · -- the entry comes from a request with the same delimiters, hence with the same settings
    obtain ⟨s', t', hmem, hkey, hcompile⟩ := h.origin _ x hx
    obtain ⟨hdelimiters, rfl⟩ := Prod.mk.inj hkey
    have hsame : s' = s := Settings.eq_of_undelimited
      (hagree s' t' s t' (List.mem_append_left _ hmem) (by simp)) hdelimiters
    rw [heq, ← hsame, hcompile]
    rfl
  · rw [heq, hcompile]
    rfl
  · rw [heq, hcompile]
    rfl

/-! ### Numbers -/

/-- **The number `n` belongs to what `P` says**, and will not be given to anything else. -/
structure Owns (n : Nat) (P : CacheKey → Prop) (c : Cache) : Prop where
  given : n < c.next
  only : ∀ k x, c.memo.get? k = some x → x.number = n → P k

theorem Owns.after {n : Nat} {P : CacheKey → Prop} {c : Cache} (h : c.Owns n P) (r : Request) :
    (c.after r).Owns n P := by
  cases r with
  | clear =>
      refine ⟨h.given, fun k x hx => ?_⟩
      cases hx
  | compile s t =>
      change (c.compile s t).2.Owns n P
      rcases c.compile_cases s t with ⟨y, -, heq⟩ | ⟨-, ⟨e, -, heq⟩ | ⟨compiled, -, heq⟩⟩
      · rw [heq]
        exact h
      · rw [heq]
        exact h
      · rw [heq]
        refine ⟨Nat.lt_succ_of_lt h.given, fun k x hx hn => ?_⟩
        rcases get?_insert_eq_some hx with ⟨rfl, rfl⟩ | hx
        · exact absurd hn (Nat.ne_of_gt h.given)
        · exact h.only k x hx hn

theorem Owns.foldl {n : Nat} {P : CacheKey → Prop} (requests : List Request) :
    ∀ {c : Cache}, c.Owns n P → (requests.foldl Cache.after c).Owns n P := by
  induction requests with
  | nil =>
      intro c h
      exact h
  | cons r requests ih =>
      intro c h
      exact ih (h.after r)

/-- Clearing takes every number away from its key. -/
theorem Owns.clear {n : Nat} {P : CacheKey → Prop} {c : Cache} (h : c.Owns n P) :
    (c.after .clear).Owns n fun _ => False := by
  refine ⟨h.given, fun k x hx => ?_⟩
  cases hx

/-- Numbers are given out once. -/
structure Numbered (c : Cache) : Prop where
  given : ∀ k x, c.memo.get? k = some x → x.number < c.next
  unique : ∀ k x k' x', c.memo.get? k = some x → c.memo.get? k' = some x' →
    x.number = x'.number → k = k'

theorem Numbered.owns {c : Cache} (h : c.Numbered) {k : CacheKey} {x : CacheEntry}
    (hx : c.memo.get? k = some x) : c.Owns x.number (· = k) :=
  ⟨h.given k x hx, fun k' x' hx' hn => h.unique k' x' k x hx' hx hn⟩

theorem Numbered.after {c : Cache} (h : c.Numbered) (r : Request) : (c.after r).Numbered := by
  cases r with
  | clear =>
      refine ⟨fun k x hx => ?_, fun k x k' x' hx => ?_⟩
      · cases hx
      · cases hx
  | compile s t =>
      change (c.compile s t).2.Numbered
      rcases c.compile_cases s t with ⟨y, -, heq⟩ | ⟨-, ⟨e, -, heq⟩ | ⟨compiled, -, heq⟩⟩
      · rw [heq]
        exact h
      · rw [heq]
        exact h
      · rw [heq]
        constructor
        · intro k x hx
          rcases get?_insert_eq_some hx with ⟨rfl, rfl⟩ | hx
          · exact Nat.lt_succ_self _
          · exact Nat.lt_succ_of_lt (h.given k x hx)
        · intro k x k' x' hx hx' hn
          rcases get?_insert_eq_some hx with ⟨rfl, rfl⟩ | hx
          · rcases get?_insert_eq_some hx' with ⟨rfl, rfl⟩ | hx'
            · rfl
            · exact absurd hn (Nat.ne_of_gt (h.given k' x' hx'))
          · rcases get?_insert_eq_some hx' with ⟨rfl, rfl⟩ | hx'
            · exact absurd hn (Nat.ne_of_lt (h.given k x hx))
            · exact h.unique k x k' x' hx hx' hn

theorem numbered_run (requests : List Request) : (run requests).Numbered := by
  induction requests using List.reverseRecOn with
  | nil =>
      refine ⟨fun k x hx => ?_, fun k x k' x' hx => ?_⟩
      · cases hx
      · cases hx
  | append_singleton past r ih =>
      rw [run_concat]
      exact ih.after r

/-! ### Whole runs -/

/-- **Nothing tells the cache from compiling anew** while the requests are dealt with one after
another. -/
structure Transparent (requests : List Request) : Prop where
  /-- A template is answered as if it were compiled on the spot. -/
  answer : ∀ past s t, past ++ [.compile s t] <+: requests →
    ((run past).compile s t).1.map (·.compiled) = Templating.compile s t
  /-- A failure leaves the cache as it was. -/
  failure : ∀ past s t e, past ++ [.compile s t] <+: requests →
    ((run past).compile s t).1 = .error e → run (past ++ [.compile s t]) = run past
  /-- Two answers are the same entry when they are for the same delimiters and the same text and the
  cache was not cleared in between, and only then. -/
  shared : ∀ past s t between s' t' x x',
    past ++ [.compile s t] ++ between ++ [.compile s' t'] <+: requests →
    ((run past).compile s t).1 = .ok x →
    ((run (past ++ [.compile s t] ++ between)).compile s' t').1 = .ok x' →
      (key s t = key s' t' ∧ .clear ∉ between → x = x') ∧
      (x.number = x'.number → key s t = key s' t' ∧ .clear ∉ between)
  /-- There is one entry for each template that was compiled since the cache was cleared last. -/
  size : ∀ past, past <+: requests → (run past).size = (Request.compiled past).length

theorem run_of_error {past : List Request} {s : Settings} {t : String} {e : CompileError}
    (h : ((run past).compile s t).1 = .error e) : run (past ++ [.compile s t]) = run past := by
  rw [run_concat]
  change ((run past).compile s t).2 = run past
  rcases (run past).compile_cases s t with ⟨x, -, heq⟩ | ⟨-, ⟨e', -, heq⟩ | ⟨compiled, -, heq⟩⟩
  · rw [heq] at h
    cases h
  · rw [heq]
  · rw [heq] at h
    cases h

section Shared

variable {past between : List Request} {s s' : Settings} {t t' : String} {x x' : CacheEntry}
  (hx : ((run past).compile s t).1 = .ok x)
  (hx' : ((run (past ++ [.compile s t] ++ between)).compile s' t').1 = .ok x')

include hx

theorem get?_run_compile : (run (past ++ [.compile s t])).memo.get? (key s t) = some x := by
  rw [run_concat]
  exact get?_of_compile_eq_ok hx

include hx'

/-- The same template is answered by the same entry, unless the cache is cleared. -/
theorem eq_of_key_eq (hkey : key s t = key s' t') (hclear : .clear ∉ between) : x = x' := by
  have hstays := get?_foldl between hclear (get?_run_compile hx)
  rw [← run_append, hkey] at hstays
  have hagain : ((run (past ++ [.compile s t] ++ between)).compile s' t').1 = .ok x := by
    rcases (run (past ++ [.compile s t] ++ between)).compile_cases s' t' with
      ⟨y, hy, heq⟩ | ⟨hnone, -⟩
    · rw [heq, Option.some.inj (hy.symm.trans hstays)]
    · rw [hnone] at hstays
      cases hstays
  exact Except.ok.inj (hagain.symm.trans hx')

/-- An entry answers for one template only, and not after the cache was cleared. -/
theorem key_eq_of_number_eq (hnumber : x.number = x'.number) :
    key s t = key s' t' ∧ .clear ∉ between := by
  have howns := (numbered_run (past ++ [.compile s t])).owns (get?_run_compile hx)
  have hlater : (run (past ++ [.compile s t] ++ between ++ [.compile s' t'])).memo.get?
      (key s' t') = some x' := get?_run_compile hx'
  rw [run_concat, run_append] at hlater
  refine ⟨?_, fun hclear => ?_⟩
  · exact (((howns.foldl between).after (.compile s' t')).only _ x' hlater hnumber.symm).symm
  · obtain ⟨front, back, rfl⟩ := List.append_of_mem hclear
    rw [List.foldl_append, List.foldl_cons] at hlater
    have hnever := (((howns.foldl front).clear).foldl back).after (.compile s' t')
    exact hnever.only _ x' hlater hnumber.symm

end Shared

/-- **The answers of a cache** are those of compiling anew, whatever is asked of it, as long as the
settings agree except for their delimiters. -/
theorem transparent_of_agree (requests : List Request) (hagree : Request.Agree requests) :
    Transparent requests where
  answer past s t hinitial := by
    refine (remembers_run past).map_compile ?_
    intro s₁ t₁ s₂ t₂ h₁ h₂
    exact hagree s₁ t₁ s₂ t₂ (hinitial.subset h₁) (hinitial.subset h₂)
  failure past s t e _ h := run_of_error h
  shared past s t between s' t' x x' _ hx hx' :=
    ⟨fun h => eq_of_key_eq hx hx' h.1 h.2, key_eq_of_number_eq hx hx'⟩
  size past _ := (remembers_run past).size_eq

/-- A template with other delimiters, one that cannot be compiled, a cleared cache. -/
theorem transparent_of_agree_delimiters :
    ∃ requests : List Request,
      requests = [.compile {} "<p>[a]</p>",
        .compile { customDelimiters := some ("[", "]") } "<p>[a]</p>",
        .compile { customDelimiters := some ("", "]") } "<p>[a]</p>",
        .compile {} "<p>[a]</p>", .clear, .compile {} " <p>[a]</p>", .compile {} "<p>[a]</p>"] ∧
      Request.Agree requests ∧ Transparent requests ∧
      (run (requests.take 4)).size = 2 ∧ (run requests).size = 2 ∧ (run requests).next = 4 := by
  refine ⟨_, rfl, (fun hagree => ⟨hagree, transparent_of_agree _ hagree, by decide +kernel,
    by decide +kernel, by decide +kernel⟩) ?_⟩
  intro s t s' t' h h'
  simp only [List.mem_cons, Request.compile.injEq, reduceCtorEq, List.not_mem_nil, or_false,
    false_or] at h h'
  -- without its delimiters, every one of the settings is the default
  rcases h with h | h | h | h | h | h <;> rcases h' with h' | h' | h' | h' | h' | h' <;>
    rw [h.1, h'.1] <;> rfl

end Cache

end Templating
