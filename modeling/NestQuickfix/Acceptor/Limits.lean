import NestQuickfix.Acceptor.Entries

/-!
# The registry and its limit

A session is stored in the step that finds the limit not yet reached, whatever has happened
since its registration began. So the registry never holds more sessions than allowed, and
each one stands under its own id.
-/

namespace NestQuickfix.Acceptor

open Lib Lib.Exec

/-- The entries belong to their sessions and are not too many, and a session that is to be
stored when the limit is reached leaves them as they are. -/
structure RegistryKept (st : AcceptorState) : Prop where
  /-- Each session stands under its id. -/
  entry : ∀ id s, st.registry.get? id = some s → (st.sessions s).sessionId = id
  /-- There are at most `maxSessions` entries, unless that is zero. -/
  bounded : 0 < st.config.maxSessions → st.registry.size ≤ st.config.maxSessions
  /-- A call of `createSession` that throws changes nothing. -/
  thrown : ∀ config c error st', (createSession config c).result st = (.error error, st') → st' = st
  /-- A registration that ends when the limit is reached leaves the entries as they are. -/
  refused : st.limitReached = true → ∀ s dropped,
    ((finishRegistration s dropped).after st).registry = st.registry

variable {guard : AcceptorState → Step → Prop} {st st' : AcceptorState} {e : Step}

/-! ## Acts -/

/-- Only the storing of a session adds an entry. -/
theorem size_apply_le {a : Act} (h : ∀ s, a ≠ .register s) (st : AcceptorState) :
    (a.apply st).registry.size ≤ st.registry.size := by
  have hwithout : ∀ id, (st.withoutEntry id).registry.size ≤ st.registry.size := by
    intro id
    rw [AcceptorState.withoutEntry_eq]
    exact OrderedMap.size_erase_le _ _
  cases a with
  | register s => exact absurd rfl (h s)
  | remove id => exact hwithout id
  | removeId s =>
    simp only [Act.apply, AcceptorState.withoutEnded]
    split
    · exact Nat.le_refl _
    · exact hwithout _
  | clear => exact Nat.zero_le _
  | _ => exact Nat.le_of_eq (congrArg OrderedMap.size (registry_apply rfl st))

/-! ## Storing a session -/

/-- A registry stays the same, or gets one more entry if the limit is not reached. -/
def AcceptorState.GrowsTo (st st' : AcceptorState) : Prop :=
  st'.registry = st.registry ∨
    st.limitReached = false ∧ st'.registry.size ≤ st.registry.size + 1

/-- A registration stores its session at most once. -/
theorem growsTo_register {A : Set Act} {s : ℕ} (dropped : Bool) (hs : s < st.nextSession)
    (hA : ∀ a ∈ A, a ∈ registerActs st s dropped ∨ a.changesRegistry = false)
    (hpath : Path Act.apply A st st') : st.GrowsTo st' := by
  have hkept : (st'.registry = st.registry ∨ st.limitReached = false ∧
      st'.registry.size ≤ st.registry.size + 1 ∧
      (st.sessions s).sessionId ∈ st'.registry.keys) ∧ s < st'.nextSession ∧
      (st'.sessions s).sessionId = (st.sessions s).sessionId := by
    refine hpath.keeps (P := fun st1 => (st1.registry = st.registry ∨ st.limitReached = false ∧
      st1.registry.size ≤ st.registry.size + 1 ∧
      (st.sessions s).sessionId ∈ st1.registry.keys) ∧ s < st1.nextSession ∧
      (st1.sessions s).sessionId = (st.sessions s).sessionId) ?_ ⟨Or.inl rfl, hs, rfl⟩
    rintro st1 a _ ha ⟨hgrows, hlt, hid⟩
    refine ⟨?_, Nat.lt_of_lt_of_le hlt (nextSession_le_apply a st1), ?_⟩
    · have hchange := (hA a ha).elim register_of_registerActs Or.inl
      rcases hchange with hsame | ⟨rfl, _, hlimit⟩
      · rwa [registry_apply hsame]
      · refine Or.inr ⟨hlimit, ?_, ?_⟩
        · rcases hgrows with hsame | ⟨_, hsize, hmem⟩
          · refine (OrderedMap.size_set_le _ _ _).trans ?_
            rw [hsame]
          · refine (Nat.le_of_eq ?_).trans hsize
            exact OrderedMap.size_set_of_mem s (hid ▸ hmem)
        · exact OrderedMap.mem_keys_set.mpr (Or.inl hid.symm)
    · rw [Session.sessionId, (session_apply a hlt).1]
      exact hid
  exact hkept.1.imp_right fun h => ⟨h.1, h.2.1⟩

/-- An event that may store a session does so in one piece with the check of the limit. -/
theorem growsTo_stored (hstep : st.step e = some st') {s : ℕ}
    (hs : st.mayStore e.event = some s) : st.GrowsTo st' := by
  rcases e with ⟨event, input⟩
  cases event with
  | registerSession y =>
    have hy : y < (st.meets ⟨.registerSession y, input⟩).nextSession :=
      of_decide_eq_true (Bool.and_eq_true_iff.mp (step_enabled hstep)).2
    have hgrows : (st.meets ⟨.registerSession y, input⟩).GrowsTo st' :=
      growsTo_register false hy (fun a ha => Or.inl ha) (step_path hstep)
    exact hgrows
  | createSession config c =>
    have hafter : (createSession config c).after (st.meets ⟨_, input⟩) = st' := after_of_step hstep
    rw [after_createSession, limitReached_meets] at hafter
    subst hafter
    split
    · exact Or.inl rfl
    · next hlimit =>
      exact Or.inr ⟨Bool.eq_false_iff.mpr hlimit, OrderedMap.size_set_le _ _ _⟩
  | resume i =>
    unfold AcceptorState.mayStore at hs
    dsimp only at hs
    split at hs
    · next c m rest hf =>
      have hpath := path_validated hstep rfl hf
      have hgrows : ((Act.create (buildSessionConfig st.config m) c).apply ((Act.take i).apply
          (st.meets ⟨.resume i, input⟩))).GrowsTo st' := by
        refine growsTo_register (s := st.nextSession) true (Nat.lt_succ_self _) ?_ hpath
        rintro a (rfl | ha)
        · exact Or.inr rfl
        · exact Or.inl ha
      exact hgrows
    · next y dropped hf =>
      rw [← after_resume_step hstep rfl hf]
      unfold AcceptorState.GrowsTo resume
      rw [registry_finishRegistration]
      split
      · exact Or.inl rfl
      · next hlimit =>
        exact Or.inr ⟨Bool.eq_false_iff.mpr hlimit, OrderedMap.size_set_le _ _ _⟩
    · cases hs
  | _ => cases hs

/-! ## Runs -/

/-- A step keeps the number of entries within the limit. -/
theorem bounded_step (hstep : st.step e = some st')
    (h : 0 < st.config.maxSessions → st.registry.size ≤ st.config.maxSessions) :
    0 < st'.config.maxSessions → st'.registry.size ≤ st'.config.maxSessions := by
  rw [config_step hstep]
  intro hlimited
  have hold := h hlimited
  by_cases hstores : ∃ s, st.mayStore e.event = some s
  · obtain ⟨s, hs⟩ := hstores
    rcases growsTo_stored hstep hs with hsame | ⟨hlimit, hsize⟩
    · rwa [hsame]
    · have hroom : st.registry.size < st.config.maxSessions := by
        by_contra hfull
        have hreached : st.limitReached = true := decide_eq_true ⟨by omega, by omega⟩
        rw [hlimit] at hreached
        cases hreached
      omega
  · refine step_keeps hstep (P := fun st1 => st1.registry.size ≤ st.config.maxSessions) hold ?_
    intro st1 a _ ha hsize
    refine (size_apply_le ?_ st1).trans hsize
    rintro s rfl
    exact hstores ⟨s, ha⟩

/-- A call of `createSession` throws for the limit only, before it does anything. -/
theorem createSession_thrown {config : SessionConfig} {c : ℕ} {error : JSError}
    (h : (createSession config c).result st = (.error error, st')) : st' = st := by
  unfold createSession at h
  rw [result_bind, result_get] at h
  dsimp only at h
  split at h
  · exact (Prod.mk.inj h).2.symm
  · rw [result_bind, result_newSession] at h
    cases (Prod.mk.inj h).1

/-- In every run the entries of the registry belong to their sessions and respect the limit, and
a session that is refused for the limit leaves them as they are. -/
theorem registryKept_of_reached (h : acceptor.Reached guard st) : RegistryKept st where
  entry id s hs := ((wellFormed_of_reached h).entry id s hs).1
  bounded := by
    induction h with
    | init hinit =>
      obtain ⟨config, rfl⟩ := hinit
      exact fun _ => Nat.zero_le _
    | step _ _ hstep ih => exact bounded_step hstep ih
  thrown _ _ _ _ := createSession_thrown
  refused hlimit s dropped := by
    rw [registry_finishRegistration, if_pos hlimit]

/-- Two clients log on to a broker with room for one session. -/
def limitedSteps : List Step :=
  (Event.connect (js "client:1")).calmly :: (Event.connect (js "client:2")).calmly ::
    logonSteps 0 (js "ALICE") ++ logonSteps 1 (js "BOB")

/-- The second client is refused, and the registry is full. -/
theorem registryKept_limitedSteps : ∃ st ∈ acceptor.exec (broker 1) limitedSteps,
    st.limitReached = true ∧ st.registry.size = 1 ∧ RegistryKept st := by
  have hrun : ∃ st ∈ acceptor.exec (broker 1) limitedSteps,
      st.limitReached = true ∧ st.registry.size = 1 := by decide +kernel
  obtain ⟨st, hst, hlimit, hsize⟩ := hrun
  have hreached : acceptor.Reached (fun _ _ => True) st := .of_exec ⟨_, rfl⟩ hst
  exact ⟨st, hst, hlimit, hsize, registryKept_of_reached hreached⟩

end NestQuickfix.Acceptor
