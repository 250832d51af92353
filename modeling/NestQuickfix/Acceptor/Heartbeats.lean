import NestQuickfix.Acceptor.Tasks

/-!
# The period of the heartbeat timer

The session for an accepted Logon takes its HeartBtInt as a number of seconds, answers with it,
and starts an interval timer with its thousandfold. Node runs a timer whose delay is out of range
every millisecond.
-/

namespace NestQuickfix.Acceptor

open Lib Lib.Exec

/-- The period of `setInterval(callback, delay)`: Node replaces a delay that is not a number,
below one or above the largest 32-bit one by one millisecond. -/
def intervalPeriod : Number → ℤ
  | .nan => 1
  | .int delay => if 1 ≤ delay ∧ delay ≤ 2147483647 then delay else 1

/-- The delay that `setupHeartbeat` passes on. -/
def Session.heartbeatDelay (x : Session) : Number :=
  match x.config.heartbeatInterval with
  | .nan => .nan
  | .int seconds => .int (seconds * 1000)

/-- The HeartBtInt with which a session answers a Logon. -/
def Session.answeredHeartBtInt (x : Session) : Value :=
  (logonMessage x.config.heartbeatInterval (.int 0) false).getField Fields.heartBtInt

/-- If the heartbeat timer is running, its period is that of the seconds the session has answered
with, and one second at least. -/
def HonoursHeartBtInt (x : Session) : Prop :=
  x.heartbeatTimer = true → ∃ seconds : ℤ, x.answeredHeartBtInt = .num (.int seconds) ∧
    intervalPeriod x.heartbeatDelay = 1000 * seconds ∧ 1000 ≤ intervalPeriod x.heartbeatDelay

/-- The condition: HeartBtInt is read as a number of seconds of at least one that fits a timer. -/
def FitsTimer (m : Message) : Prop :=
  ∃ seconds : ℤ, parseInt (m.getField Fields.heartBtInt).printed = .int seconds ∧
    1 ≤ seconds ∧ seconds ≤ 2147483

theorem answeredHeartBtInt_eq (x : Session) :
    x.answeredHeartBtInt = .num x.config.heartbeatInterval := rfl

theorem honoursHeartBtInt_of_fits {x : Session} {seconds : ℤ}
    (hinterval : x.config.heartbeatInterval = .int seconds) (hpos : 1 ≤ seconds)
    (hmax : seconds ≤ 2147483) : HonoursHeartBtInt x := by
  have hperiod : intervalPeriod x.heartbeatDelay = 1000 * seconds := by
    rw [Session.heartbeatDelay, hinterval]
    dsimp only [intervalPeriod]
    rw [if_pos (by omega), mul_comm]
  intro _
  exact ⟨seconds, by rw [answeredHeartBtInt_eq, hinterval], hperiod, by omega⟩

theorem fits_of_honoursHeartBtInt {x : Session} (h : HonoursHeartBtInt x)
    (htimer : x.heartbeatTimer = true) :
    ∃ seconds : ℤ, x.config.heartbeatInterval = .int seconds ∧ 1 ≤ seconds ∧
      seconds ≤ 2147483 := by
  obtain ⟨seconds, hanswer, hperiod, hfast⟩ := h htimer
  have hinterval : x.config.heartbeatInterval = .int seconds :=
    Value.num.inj ((answeredHeartBtInt_eq x).symm.trans hanswer)
  refine ⟨seconds, hinterval, by omega, ?_⟩
  rw [Session.heartbeatDelay, hinterval] at hfast
  dsimp only [intervalPeriod] at hfast
  split at hfast
  · omega
  · omega

/-! ## Created sessions -/

section

variable {st st' : AcceptorState} {e : Step} {c : ℕ} {m : Message} {rest : List Message}

/-- The timer of the session that is created for a Logon is running. -/
theorem timer_created_step (hstep : st.step e = some st')
    (hgoes : st.GoesOn e.event (.validated c m rest .valid)) :
    (st'.sessions st.nextSession).heartbeatTimer = true := by
  obtain ⟨i, hevent, hf⟩ := hgoes
  refine ((path_validated hstep hevent hf).keeps (P := fun st1 => st.nextSession < st1.nextSession ∧
    (st1.sessions st.nextSession).heartbeatTimer = true) ?_ ?_).2
  · rintro st1 a _ ha ⟨hlt, htimer⟩
    have hdisconnect : a ≠ .disconnect st.nextSession := by
      rintro rfl
      rcases ha with ha | ⟨_, ⟨_, ha⟩ | ⟨_, ha⟩⟩ |
        ⟨old, _, ⟨_, ha⟩ | ⟨_, ha | (ha | ⟨_, _, ha⟩) | ⟨_, ha⟩⟩⟩ <;> cases ha
    exact ⟨hlt.trans_le (nextSession_le_apply a st1), (timer_apply hdisconnect hlt).trans htimer⟩
  · simp [Act.apply, AcceptorState.meets]

/-- A session keeps its configuration. -/
theorem config_exec {es : List Step} {s : ℕ} (hs : s < st.nextSession)
    (hexec : acceptor.exec st es = some st') :
    (st'.sessions s).config = (st.sessions s).config := by
  refine (System.exec_keeps (P := fun st1 => s < st1.nextSession ∧
    (st1.sessions s).config = (st.sessions s).config) ?_ ⟨hs, rfl⟩ hexec).2
  rintro st1 e st2 ⟨hlt, hconfig⟩ hstep
  exact ⟨Nat.lt_of_lt_of_le hlt (nextSession_le_step hstep),
    (binding_step hstep hlt).1.trans hconfig⟩

/-- The session that the acceptor creates for an accepted Logon honours HeartBtInt from its
creation on, exactly if HeartBtInt is read as a number of seconds between one and the largest
that fits a timer. -/
theorem honoursHeartBtInt_iff (hstep : st.step e = some st')
    (hgoes : st.GoesOn e.event (.validated c m rest .valid)) :
    (∀ es st'', acceptor.exec st' es = some st'' →
      HonoursHeartBtInt (st''.sessions st.nextSession)) ↔ FitsTimer m := by
  have htimer := timer_created_step hstep hgoes
  obtain ⟨i, hevent, hf⟩ := hgoes
  obtain ⟨hnext, hconfig, _⟩ := created_step hstep hevent hf
  have hinterval : (st'.sessions st.nextSession).config.heartbeatInterval =
      parseInt (m.getField Fields.heartBtInt).printed := by rw [hconfig]; rfl
  constructor
  · intro h
    obtain ⟨seconds, hseconds, hpos, hmax⟩ := fits_of_honoursHeartBtInt (h [] st' rfl) htimer
    exact ⟨seconds, hinterval.symm.trans hseconds, hpos, hmax⟩
  · rintro ⟨seconds, hseconds, hpos, hmax⟩ es st'' hexec
    have hlt : st.nextSession < st'.nextSession := by omega
    have hkept := config_exec hlt hexec
    exact honoursHeartBtInt_of_fits (by rw [hkept, hinterval, hseconds]) hpos hmax

end

/-- The bytes of a Logon with a HeartBtInt. -/
def heartbeatLogon (heartBtInt : JSString) : List UInt8 :=
  clientBytes (js "A") (js "CLIENT") [(98, js "0"), (108, heartBtInt)]

/-- The broker when it has accepted a Logon with a HeartBtInt. -/
def acceptedLogon (heartBtInt : JSString) : Option AcceptorState :=
  acceptor.exec (broker 0)
    ([Event.connect (js "client:1"), .data 0 (heartbeatLogon heartBtInt)].map Event.calmly)

/-- The accepted Logon with which a task goes on. -/
def AcceptorState.validLogon (st : AcceptorState) (i : ℕ) : Option Message :=
  match st.tasks[i]? with
  | some (.validated _ m _ .valid) => some m
  | _ => none

theorem goesOn_of_validLogon {st : AcceptorState} {i : ℕ} {m : Message}
    (h : m ∈ st.validLogon i) : ∃ c rest, st.GoesOn (.resume i) (.validated c m rest .valid) := by
  unfold AcceptorState.validLogon at h
  split at h
  · next c m' rest hf =>
    obtain rfl := Option.mem_some_iff.mp h
    exact ⟨c, rest, i, rfl, hf⟩
  · cases h

/-- The session for a Logon with HeartBtInt 30. -/
theorem honoursHeartBtInt_thirty : ∃ st ∈ acceptedLogon (js "30"),
    ∃ st' ∈ st.step (Event.resume 0).calmly, ∀ es st'', acceptor.exec st' es = some st'' →
      HonoursHeartBtInt (st''.sessions st.nextSession) := by
  have hrun : ∃ st ∈ acceptedLogon (js "30"), (∃ m ∈ st.validLogon 0,
      parseInt (m.getField Fields.heartBtInt).printed = .int 30) ∧
        (st.step (Event.resume 0).calmly).isSome = true := by decide +kernel
  obtain ⟨st, hst, ⟨m, hm, hseconds⟩, hstep⟩ := hrun
  obtain ⟨st', hst'⟩ := Option.isSome_iff_exists.mp hstep
  obtain ⟨c, rest, hgoes⟩ := goesOn_of_validLogon hm
  exact ⟨st, hst, st', hst', (honoursHeartBtInt_iff hst' hgoes).mpr
    ⟨30, hseconds, by decide, by decide⟩⟩

/-- The session for a Logon with HeartBtInt 0 runs its timer every millisecond. -/
theorem not_honoursHeartBtInt_zero : ∃ st ∈ acceptedLogon (js "0"),
    ∃ st' ∈ st.step (Event.resume 0).calmly,
      (∃ m ∈ st.validLogon 0, m.getField Fields.heartBtInt = .str (js "0")) ∧
        intervalPeriod (st'.sessions st.nextSession).heartbeatDelay = 1 ∧
        ¬ HonoursHeartBtInt (st'.sessions st.nextSession) := by
  have hrun : ∃ st ∈ acceptedLogon (js "0"), ∃ st' ∈ st.step (Event.resume 0).calmly,
      (∃ m ∈ st.validLogon 0, m.getField Fields.heartBtInt = .str (js "0")) ∧
        intervalPeriod (st'.sessions st.nextSession).heartbeatDelay = 1 ∧
        (st'.sessions st.nextSession).heartbeatTimer = true := by decide +kernel
  obtain ⟨st, hst, st', hst', hm, hperiod, htimer⟩ := hrun
  refine ⟨st, hst, st', hst', hm, hperiod, fun h => ?_⟩
  obtain ⟨_, _, _, hfast⟩ := h htimer
  omega

end NestQuickfix.Acceptor
