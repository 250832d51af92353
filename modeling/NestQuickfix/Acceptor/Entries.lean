import NestQuickfix.Acceptor.Tasks

/-!
# Entries of the registry along a step

A session stands in the registry until a step ends it, takes its entry away without ending
it, or empties the registry. Which entries a step can take away is known beforehand.
-/

namespace NestQuickfix.Acceptor

open Lib Lib.Exec

/-- The sessions whose entries an event removes or replaces without ending them. -/
def AcceptorState.evicts (st : AcceptorState) (e : Event) : List ℕ :=
  ((st.completes e).flatMap fun s =>
    (st.registry.get? (st.sessions s).sessionId).toList.filter fun x => x ≠ s) ++
  match e with
  | .resume i =>
    match st.tasks[i]? with
    | some (.registration s _) =>
      if st.limitReached then []
      else (st.registry.get? (st.sessions s).sessionId).toList.filter fun x => x ≠ s
    | _ => []
  | .createSession config _ =>
    if st.limitReached then []
    else (st.registry.get? (sessionKey config.senderCompId config.targetCompId)).toList
  | .removeSession sessionId => (st.registry.get? sessionId).toList
  | _ => []

variable {guard : AcceptorState → Step → Prop} {st st' : AcceptorState} {e : Step}
  {id : JSString} {x : ℕ}

/-- What becomes of the entry of session `x` under an id in a step. -/
inductive EntryFate (st : AcceptorState) (e : Step) (id : JSString) (x : ℕ) (st' : AcceptorState) :
    Prop
  | registered (h : st'.registry.get? id = some x)
  | ended (h : (st'.sessions x).heartbeatTimer = false)
  | evicted (h : x ∈ (st.meets e).evicts e.event)
  | cleared {k : ℕ} {stopping : Bool} (h : st.GoesOn e.event (.allClosed k stopping))

theorem mem_evicts_of_completes {s : ℕ} (hs : s ∈ (st.meets e).completes e.event)
    (hx : st.registry.get? (st.sessions s).sessionId = some x) (hne : x ≠ s) :
    x ∈ (st.meets e).evicts e.event := by
  refine List.mem_append_left _ (List.mem_flatMap.mpr ⟨s, hs, ?_⟩)
  exact List.mem_filter.mpr ⟨Option.mem_toList.mpr hx, decide_eq_true hne⟩

/-! ## Registrations -/

/-- A registration changes the registry only by storing its session, when the id is free and the
limit is not reached. -/
theorem register_of_registerActs {s : ℕ} {dropped : Bool} {a : Act}
    (ha : a ∈ registerActs st s dropped) : a.changesRegistry = false ∨ a = .register s ∧
      st.registry.get? (st.sessions s).sessionId = none ∧ st.limitReached = false := by
  rcases ha with ⟨hfree, ⟨hlimit, rfl⟩ | ⟨err, rfl⟩⟩ | ⟨old, _, ha⟩
  · exact Or.inr ⟨rfl, hfree, hlimit⟩
  · exact Or.inl rfl
  · left
    rcases ha with ⟨_, ha⟩ | ⟨_, rfl | (rfl | ⟨m, raw, rfl⟩) | ⟨error, rfl⟩⟩
    · obtain rfl := Set.mem_singleton_iff.mp ha
      rfl
    all_goals rfl

/-- Registering a session whose id is free, or whose old session is logged out first, replaces no
entry. -/
theorem entry_register {A : Set Act} {s : ℕ} (dropped : Bool) (hs : s < st.nextSession)
    (hA : ∀ a ∈ A, a ∈ registerActs st s dropped ∨ a.changesRegistry = false)
    (hpath : Path Act.apply A st st') (hx : st.registry.get? id = some x) :
    st'.registry.get? id = some x := by
  refine (hpath.keeps (P := fun st1 => st1.registry.get? id = some x ∧ s < st1.nextSession ∧
    (st1.sessions s).sessionId = (st.sessions s).sessionId) ?_ ⟨hx, hs, rfl⟩).1
  rintro st1 a _ ha ⟨hentry, hlt, hid⟩
  refine ⟨?_, Nat.lt_of_lt_of_le hlt (nextSession_le_apply a st1), ?_⟩
  · have hchange : a.changesRegistry = false ∨ a = .register s ∧
        st.registry.get? (st.sessions s).sessionId = none ∧ st.limitReached = false :=
      (hA a ha).elim register_of_registerActs Or.inl
    rcases hchange with hsame | ⟨rfl, hfree, _⟩
    · rwa [registry_apply hsame]
    · have hne : id ≠ (st1.sessions s).sessionId := by
        rintro rfl
        rw [hid, hfree] at hx
        cases hx
      exact (OrderedMap.get?_set_of_ne _ _ hne).trans hentry
  · rw [Session.sessionId, (session_apply a hlt).1]
    exact hid

theorem registry_finishRegistration (s : ℕ) (dropped : Bool) :
    ((finishRegistration s dropped).after st).registry =
      if st.limitReached then st.registry else st.registry.set (st.sessions s).sessionId s := by
  unfold finishRegistration
  rw [after_bind_of_ok (result_get st)]
  split
  · split <;> rfl
  · rfl

theorem limitReached_meets : (st.meets e).limitReached = st.limitReached := rfl

theorem entry_created {config : SessionConfig} {c : ℕ} {input : Input}
    (hstep : st.step ⟨.createSession config c, input⟩ = some st')
    (hx : st.registry.get? id = some x) :
    EntryFate st ⟨.createSession config c, input⟩ id x st' := by
  have hafter : (createSession config c).after (st.meets ⟨_, input⟩) = st' := after_of_step hstep
  rw [after_createSession, limitReached_meets] at hafter
  subst hafter
  split
  · exact .registered hx
  · next hlimit =>
    by_cases hid : id = sessionKey config.senderCompId config.targetCompId
    · refine .evicted (List.mem_append_right _ ?_)
      subst hid
      dsimp only
      rw [limitReached_meets, if_neg hlimit]
      exact Option.mem_toList.mpr hx
    · refine .registered ((OrderedMap.get?_set_of_ne _ _ ?_).trans hx)
      simpa [Act.apply, Session.sessionId, AcceptorState.meets] using hid

theorem entry_waited {i s : ℕ} {dropped : Bool} {input : Input}
    (hf : st.tasks[i]? = some (.registration s dropped))
    (hstep : st.step ⟨.resume i, input⟩ = some st') (hx : st.registry.get? id = some x) :
    EntryFate st ⟨.resume i, input⟩ id x st' := by
  have hf' : (st.meets ⟨.resume i, input⟩).tasks[i]? = some (.registration s dropped) := hf
  have hregistry : st'.registry =
      if st.limitReached then st.registry else st.registry.set (st.sessions s).sessionId s := by
    rw [← after_resume_step hstep rfl hf]
    exact registry_finishRegistration s dropped
  by_cases hlimit : st.limitReached = true
  · rw [if_pos hlimit] at hregistry
    exact .registered (hregistry ▸ hx)
  · rw [if_neg hlimit] at hregistry
    by_cases hid : id = (st.sessions s).sessionId
    · by_cases hxs : x = s
      · subst hxs hid
        refine .registered ?_
        rw [hregistry]
        exact OrderedMap.get?_set_self ..
      · refine .evicted (List.mem_append_right _ ?_)
        subst hid
        dsimp only
        rw [hf']
        dsimp only
        rw [limitReached_meets, if_neg hlimit]
        exact List.mem_filter.mpr ⟨Option.mem_toList.mpr hx, decide_eq_true hxs⟩
    · refine .registered ?_
      rw [hregistry]
      exact (OrderedMap.get?_set_of_ne _ _ hid).trans hx

theorem entry_validated {i c : ℕ} {m : Message} {rest : List Message} {input : Input}
    (hf : st.tasks[i]? = some (.validated c m rest .valid))
    (hstep : st.step ⟨.resume i, input⟩ = some st') (hx : st.registry.get? id = some x) :
    st'.registry.get? id = some x := by
  have hpath := path_validated hstep rfl hf
  refine entry_register (s := st.nextSession) true ?_ ?_ hpath hx
  · exact Nat.lt_succ_self st.nextSession
  · rintro a (rfl | ha)
    · exact Or.inr rfl
    · exact Or.inl ha

/-- An event that may store a session replaces at most the entry that is known beforehand. -/
theorem entry_stored (hstep : st.step e = some st') (hx : st.registry.get? id = some x) {s : ℕ}
    (hs : st.mayStore e.event = some s) : EntryFate st e id x st' := by
  rcases e with ⟨event, input⟩
  cases event with
  | registerSession y =>
    have hy : y < (st.meets ⟨.registerSession y, input⟩).nextSession :=
      of_decide_eq_true (Bool.and_eq_true_iff.mp (step_enabled hstep)).2
    have hpath := step_path hstep
    exact .registered (entry_register (A := registerActs (st.meets ⟨_, input⟩) y false) false hy
      (fun a ha => Or.inl ha) hpath hx)
  | createSession config c => exact entry_created hstep hx
  | resume i =>
    unfold AcceptorState.mayStore at hs
    dsimp only at hs
    split at hs
    · next hf => exact .registered (entry_validated hf hstep hx)
    · next hf => exact entry_waited hf hstep hx
    · cases hs
  | _ => cases hs

/-! ## All events -/

/-- What becomes of the entry of a created session in any step. -/
theorem entry_step (hreached : acceptor.Reached guard st) (hstep : st.step e = some st')
    (hx : st.registry.get? id = some x) : EntryFate st e id x st' := by
  obtain ⟨hid, hlt⟩ := (wellFormed_of_reached hreached).entry id x hx
  by_cases hstores : ∃ s, st.mayStore e.event = some s
  · obtain ⟨s, hs⟩ := hstores
    exact entry_stored hstep hx hs
  · by_contra hfate
    have hkept : st'.registry.get? id = some x ∨ (st'.sessions x).heartbeatTimer = false := by
      refine (step_keeps hstep (P := fun st1 => (st1.registry.get? id = some x ∨
        (st1.sessions x).heartbeatTimer = false) ∧ st.nextSession ≤ st1.nextSession ∧
        ∀ s < st.nextSession, (st1.sessions s).sessionId = (st.sessions s).sessionId)
        ⟨Or.inl hx, Nat.le_refl _, fun _ _ => rfl⟩ ?_).1
      rintro st1 a _ ha ⟨hkept, hnext, hids⟩
      refine ⟨?_, hnext.trans (nextSession_le_apply a st1), fun s hs => ?_⟩
      · rcases hkept with hentry | htimer
        · cases a with
          | register s => exact absurd ⟨s, ha⟩ hstores
          | remove sessionId =>
            have hevent : e.event = .removeSession sessionId := ha
            have hne : id ≠ sessionId := by
              rintro rfl
              refine hfate (.evicted (List.mem_append_right _ ?_))
              rw [hevent]
              exact Option.mem_toList.mpr hx
            refine Or.inl ?_
            simp only [Act.apply]
            rw [AcceptorState.withoutEntry_eq]
            exact (OrderedMap.get?_erase ..).trans ((if_neg hne).trans hentry)
          | removeId s =>
            have hends : s ∈ (st.meets e).ends e.event := ends_of_completes ha
            have hs : s < st.nextSession :=
              lt_nextSession_of_ends hreached (step_enabled hstep) hends
            simp only [Act.apply, AcceptorState.withoutEnded]
            split
            · exact Or.inl hentry
            · next htimer =>
              rw [AcceptorState.withoutEntry_eq, hids s hs]
              by_cases hid' : id = (st.sessions s).sessionId
              · by_cases hxs : x = s
                · subst hxs
                  exact Or.inr (Bool.eq_false_iff.mpr htimer)
                · subst hid'
                  exact absurd (.evicted (mem_evicts_of_completes ha hx hxs)) hfate
              · exact Or.inl ((OrderedMap.get?_erase ..).trans ((if_neg hid').trans hentry))
          | clear =>
            obtain ⟨k, stopping, hgoes⟩ := ha
            exact absurd (.cleared hgoes) hfate
          | _ =>
            rw [registry_apply rfl]
            exact Or.inl hentry
        · exact Or.inr (timer_apply_of_off a (Nat.lt_of_lt_of_le hlt hnext) htimer)
      · rw [Session.sessionId, (session_apply a (Nat.lt_of_lt_of_le hs hnext)).1]
        exact hids s hs
    exact hfate (hkept.elim .registered .ended)

end NestQuickfix.Acceptor
