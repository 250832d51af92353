import NestQuickfix.Acceptor.WellFormed
import NestQuickfix.Lib.Splitting

/-!
# Sessions and their CompIDs

The session manager finds sessions by their ids, which join two CompIDs with `->`. An id
determines the CompIDs it was made from only if none of them contains `->`.
-/

namespace NestQuickfix.Acceptor

open Lib

/-- `getSession`. -/
def AcceptorState.getSession (st : AcceptorState) (senderCompId targetCompId : Value) : Option ℕ :=
  st.registry.get? (sessionKey senderCompId targetCompId)

/-- `getSessionFromLogon`. -/
def AcceptorState.getSessionFromLogon (st : AcceptorState) (logon : Message) : Option ℕ :=
  st.getSession (logon.getField Fields.senderCompID) (logon.getField Fields.targetCompID)

/-- A session is configured with these CompIDs. -/
def AcceptorState.HasCompIDs (st : AcceptorState) (x : ℕ) (s t : JSString) : Prop :=
  (st.sessions x).config.senderCompId = .str s ∧ (st.sessions x).config.targetCompId = .str t

/-- Lookups by CompIDs, and the lookup for a message, find only sessions with these CompIDs. -/
structure ExactLookups (st : AcceptorState) : Prop where
  getSession : ∀ s t x, st.getSession (.str s) (.str t) = some x → st.HasCompIDs x s t
  getSessionFromLogon : ∀ logon s t x, logon.getField Fields.senderCompID = .str s →
    logon.getField Fields.targetCompID = .str t → st.getSessionFromLogon logon = some x →
      st.HasCompIDs x s t
  routed : ∀ m s t x, m.getField Fields.senderCompID = .str s →
    m.getField Fields.targetCompID = .str t → st.registry.get? (buildSessionId m) = some x →
      st.HasCompIDs x s t

/-- A string without `->`. -/
def Unbroken : Value → Prop
  | .str s => ¬ js "->" <:+: s
  | _ => False

instance : ∀ v, Decidable (Unbroken v)
  | .str s => inferInstanceAs (Decidable (¬ js "->" <:+: s))
  | .undefined | .num _ | .other _ => inferInstanceAs (Decidable False)

/-- The condition: the CompIDs of all registered sessions are strings without `->`. -/
def UnbrokenIds (st : AcceptorState) : Prop :=
  ∀ x ∈ st.registry.values, Unbroken (st.sessions x).config.senderCompId ∧
    Unbroken (st.sessions x).config.targetCompId

instance (st : AcceptorState) : Decidable (UnbrokenIds st) := List.decidableBAll
  (fun x => Unbroken (st.sessions x).config.senderCompId ∧
    Unbroken (st.sessions x).config.targetCompId) st.registry.values

theorem sessionKey_str (s t : JSString) :
    sessionKey (.str s) (.str t) = s ++ (js "->" ++ t) := List.append_assoc ..

/-- An id determines CompIDs without `->`. -/
theorem sessionKey_inj {s t s' t' : JSString} (hs : Unbroken (.str s)) (ht : Unbroken (.str t))
    (h : sessionKey (.str s) (.str t) = sessionKey (.str s') (.str t')) : s = s' ∧ t = t' := by
  have harrow : js "->" = 45 :: [62] := by decide
  rw [sessionKey_str, sessionKey_str, harrow] at h
  rw [Unbroken, harrow] at hs ht
  exact append_sep_inj (by decide) hs ht h

/-- Other CompIDs do not determine the id they make. -/
theorem exists_sessionKey_eq {s t : JSString} (h : ¬ (Unbroken (.str s) ∧ Unbroken (.str t))) :
    ∃ s' t', sessionKey (.str s') (.str t') = sessionKey (.str s) (.str t) ∧ s' ≠ s := by
  have hpos : 0 < (js "->").length := by decide
  rw [Unbroken, Unbroken, not_and_or, not_not, not_not] at h
  rcases h with ⟨u, v, rfl⟩ | ⟨u, v, rfl⟩
  · refine ⟨u, v ++ (js "->" ++ t), ?_, fun heq => ?_⟩
    · simp only [sessionKey_str, List.append_assoc]
    · have hlength := congrArg List.length heq
      simp only [List.length_append] at hlength
      omega
  · refine ⟨s ++ (js "->" ++ u), v, ?_, fun heq => ?_⟩
    · simp only [sessionKey_str, List.append_assoc]
    · have hlength := congrArg List.length heq
      simp only [List.length_append] at hlength
      omega

/-- In every run of the acceptor and of the calls of its session manager, all lookups are
exact exactly when all registered CompIDs are strings without `->`. -/
theorem exactLookups_iff {guard : AcceptorState → Step → Prop} {st : AcceptorState}
    (h : acceptor.Reached guard st) : ExactLookups st ↔ UnbrokenIds st := by
  have hentry : ∀ id x, st.registry.get? id = some x → (st.sessions x).sessionId = id :=
    fun id x hx => ((wellFormed_of_reached h).entry id x hx).1
  constructor
  · intro hexact x hx
    obtain ⟨id, hid⟩ := OrderedMap.mem_values_iff.mp hx
    obtain ⟨s, hs⟩ : ∃ s, s = (st.sessions x).config.senderCompId.printed := ⟨_, rfl⟩
    obtain ⟨t, ht⟩ : ∃ t, t = (st.sessions x).config.targetCompId.printed := ⟨_, rfl⟩
    have hkey : sessionKey (.str s) (.str t) = id := by
      rw [hs, ht, ← hentry id x hid]
      rfl
    obtain ⟨hsender, htarget⟩ := hexact.getSession s t x (by rwa [AcceptorState.getSession, hkey])
    rw [hsender, htarget]
    by_contra hbroken
    obtain ⟨s', t', hsame, hne⟩ := exists_sessionKey_eq hbroken
    have hother := hexact.getSession s' t' x (by rwa [AcceptorState.getSession, hsame, hkey])
    exact hne (Value.str.inj (hother.1.symm.trans hsender))
  · intro hunbroken
    have hget : ∀ s t x, st.registry.get? (sessionKey (.str s) (.str t)) = some x →
        st.HasCompIDs x s t := by
      intro s t x hx
      have hkey := hentry _ x hx
      obtain ⟨hsender, htarget⟩ := hunbroken x (OrderedMap.mem_values_iff.mpr ⟨_, hx⟩)
      unfold AcceptorState.HasCompIDs
      unfold Session.sessionId at hkey
      cases hs : (st.sessions x).config.senderCompId with
      | str s' =>
        cases ht : (st.sessions x).config.targetCompId with
        | str t' =>
          rw [hs] at hsender hkey
          rw [ht] at htarget hkey
          obtain ⟨rfl, rfl⟩ := sessionKey_inj hsender htarget hkey
          exact ⟨rfl, rfl⟩
        | _ =>
          rw [ht] at htarget
          exact htarget.elim
      | _ =>
        rw [hs] at hsender
        exact hsender.elim
    refine ⟨hget, fun logon s t x hs ht hx => hget s t x ?_, fun m s t x hs ht hx => hget s t x ?_⟩
    · rwa [AcceptorState.getSessionFromLogon, AcceptorState.getSession, hs, ht] at hx
    · rwa [buildSessionId, hs, ht] at hx

/-- A client logs on, and a session is created whose SenderCompID contains `->`. -/
def arrowSteps : List Step :=
  (Event.connect (js "client:1")).calmly :: logonSteps 0 (js "CLIENT") ++
    [(Event.createSession ⟨.str (js "A->B"), .str (js "C"), .int 30, .str (js "FIX.4.4")⟩ 0).calmly]

/-- Without that session all lookups are exact. -/
theorem exactLookups_logon : ∃ st ∈ acceptor.exec (broker 0) (arrowSteps.take 8),
    st.getSession (.str (js "CLIENT")) (.str (js "BROKER")) = some 0 ∧ ExactLookups st := by
  have hrun : ∃ st ∈ acceptor.exec (broker 0) (arrowSteps.take 8),
      st.getSession (.str (js "CLIENT")) (.str (js "BROKER")) = some 0 ∧ UnbrokenIds st := by
    decide +kernel
  obtain ⟨st, hst, hget, hunbroken⟩ := hrun
  have hreached : acceptor.Reached (fun _ _ => True) st := .of_exec ⟨_, rfl⟩ hst
  exact ⟨st, hst, hget, (exactLookups_iff hreached).mpr hunbroken⟩

/-- The created session of `A->B` and `C` is found for `A` and `B->C`. -/
theorem not_exactLookups_arrow : ∃ st ∈ acceptor.exec (broker 0) arrowSteps,
    st.getSession (.str (js "A")) (.str (js "B->C")) = some 1 ∧ ¬ ExactLookups st := by
  have hrun : ∃ st ∈ acceptor.exec (broker 0) arrowSteps,
      st.getSession (.str (js "A")) (.str (js "B->C")) = some 1 ∧
        (st.sessions 1).config.senderCompId = .str (js "A->B") := by
    decide +kernel
  obtain ⟨st, hst, hget, hsender⟩ := hrun
  refine ⟨st, hst, hget, fun h => ?_⟩
  have hcompIDs := (h.getSession _ _ 1 hget).1
  rw [hsender] at hcompIDs
  exact absurd hcompIDs (by decide)

end NestQuickfix.Acceptor
