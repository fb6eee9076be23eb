import Keyset.Connection.Basic
import Mathlib.Data.List.Basic
import Mathlib.Data.List.Induction

/-! # Calls on a connection, one after the other

    A connection holds the client of the last attempt that succeeded, unless it
    was given up since (`client?_run_iff`), and its state is that of the last
    call alone (`state_run_iff`).  An attempt that fails changes the state and
    not the client, so the two tell the same as long as no attempt fails while a
    client is held (`run_agrees_iff`): after one that does, the connection hands
    out the client of an earlier attempt although its state is not connected
    (`run_leaves_client`). -/

namespace Keyset

variable {Client : Type}

/-- An attempt that ends without a connection. -/
def Attempt.Fails : Attempt Client → Prop
  | badAddress _ | noClient _ | noAnswer _ => True
  | connected _ => False

namespace Connection

/-- A call that changes a connection. -/
inductive Call (Client : Type) where
  | connect (attempt : Attempt Client)
  | disconnect

/-- A call that tries to connect and fails. -/
def Call.Fails : Call Client → Prop
  | connect attempt => attempt.Fails
  | disconnect => False

/-- The connection after a call. -/
def take (c : Connection Client) : Call Client → Connection Client
  | .connect attempt => (c.connect attempt).1
  | .disconnect => c.disconnect

/-- The connection after some calls, which was not made before. -/
def run (calls : List (Call Client)) : Connection Client := calls.foldl take new

/-! ## One call -/

/-- A call makes a connection, or fails to and leaves the client as it was, or gives it up. -/
theorem take_cases (c : Connection Client) (call : Call Client) :
    (∃ client, call = .connect (.connected client) ∧ c.take call = ⟨some client, .connected⟩) ∨
    (call.Fails ∧ ∃ reason, c.take call = ⟨c.client?, .failed reason⟩) ∨
    (call = .disconnect ∧ c.take call = ⟨none, .disconnected⟩) := by
  cases call with
  | disconnect => exact .inr (.inr ⟨rfl, rfl⟩)
  | connect attempt =>
    cases attempt with
    | connected client => exact .inl ⟨client, rfl, rfl⟩
    | badAddress reason => exact .inr (.inl ⟨trivial, _, rfl⟩)
    | noClient reason => exact .inr (.inl ⟨trivial, _, rfl⟩)
    | noAnswer reason => exact .inr (.inl ⟨trivial, _, rfl⟩)

theorem run_append_singleton (calls : List (Call Client)) (call : Call Client) :
    run (calls ++ [call]) = (run calls).take call := by
  rw [run, List.foldl_append]
  rfl

theorem client_eq_ok_iff {c : Connection Client} {client : Client} :
    c.client = .ok client ↔ c.client? = some client := by
  unfold Connection.client
  cases c.client? <;> simp

/-! ## The client -/

/-- An attempt gave the client, and all calls since then failed to connect. -/
def Held (calls : List (Call Client)) (client : Client) : Prop :=
  ∃ before failures, calls = before ++ .connect (.connected client) :: failures ∧
    ∀ call ∈ failures, call.Fails

theorem held_append_singleton_iff {calls : List (Call Client)} {call : Call Client}
    {client : Client} :
    Held (calls ++ [call]) client ↔
      call = .connect (.connected client) ∨ (call.Fails ∧ Held calls client) := by
  constructor
  · rintro ⟨before, failures, heq, hfailures⟩
    rcases List.eq_nil_or_concat' failures with rfl | ⟨failures, last, rfl⟩
    · exact .inl (List.append_singleton_inj.mp heq).2
    · rw [← List.cons_append, ← List.append_assoc] at heq
      obtain ⟨hcalls, rfl⟩ := List.append_singleton_inj.mp heq
      refine .inr ⟨hfailures _ (List.mem_append_right _ (List.mem_singleton_self _)), before,
        failures, hcalls, fun other hother => hfailures other (List.mem_append_left _ hother)⟩
  · rintro (rfl | ⟨hfails, before, failures, rfl, hfailures⟩)
    · exact ⟨calls, [], rfl, fun _ h => nomatch h⟩
    · refine ⟨before, failures ++ [call], by simp, ?_⟩
      intro other hother
      rcases List.mem_append.mp hother with hother | hother
      · exact hfailures other hother
      · rwa [List.mem_singleton.mp hother]

/-- The client that a connection has is the last one that an attempt gave, unless it was given up
    since. -/
theorem client?_run_iff {calls : List (Call Client)} {client : Client} :
    (run calls).client? = some client ↔ Held calls client := by
  induction calls using List.reverseRecOn with
  | nil =>
    refine iff_of_false (fun h => nomatch h) ?_
    rintro ⟨before, failures, heq, -⟩
    exact absurd heq.symm (by simp)
  | append_singleton calls call ih =>
    rw [run_append_singleton, held_append_singleton_iff, ← ih]
    rcases (run calls).take_cases call with ⟨given, rfl, htake⟩ | ⟨hfails, reason, htake⟩ |
      ⟨rfl, htake⟩
    · rw [htake]
      simp [Call.Fails, Attempt.Fails]
    · rw [htake]
      have hne : call ≠ .connect (.connected client) := by
        rintro rfl
        exact hfails
      simp [hne, hfails]
    · rw [htake]
      simp [Call.Fails]

/-! ## The state -/

/-- The state is connected exactly if the last call made the connection. -/
theorem state_run_iff {calls : List (Call Client)} :
    (run calls).state = .connected ↔
      ∃ before client, calls = before ++ [.connect (.connected client)] := by
  rcases List.eq_nil_or_concat' calls with rfl | ⟨calls, call, rfl⟩
  · exact iff_of_false (fun h => nomatch h) fun ⟨_, _, h⟩ => absurd h.symm (by simp)
  · have hlast : (∃ before client, calls ++ [call] = before ++ [.connect (.connected client)]) ↔
        ∃ client, call = .connect (.connected client) := by
      constructor
      · rintro ⟨before, client, heq⟩
        exact ⟨client, (List.append_singleton_inj.mp heq).2⟩
      · rintro ⟨client, rfl⟩
        exact ⟨calls, client, rfl⟩
    rw [run_append_singleton, hlast]
    rcases (run calls).take_cases call with ⟨given, rfl, htake⟩ | ⟨hfails, reason, htake⟩ |
      ⟨rfl, htake⟩
    · rw [htake]
      exact iff_of_true rfl ⟨given, rfl⟩
    · rw [htake]
      refine iff_of_false (fun h => nomatch h) ?_
      rintro ⟨client, rfl⟩
      exact hfails
    · rw [htake]
      exact iff_of_false (fun h => nomatch h) fun ⟨_, h⟩ => nomatch h

/-- A connection whose last call made it has a client. -/
theorem exists_held_of_connected {calls : List (Call Client)}
    (h : (run calls).state = .connected) : ∃ client, Held calls client := by
  obtain ⟨before, client, rfl⟩ := state_run_iff.mp h
  exact ⟨client, before, [], rfl, fun _ h => nomatch h⟩

/-! ## Both together -/

/-- The server is asked exactly if there is a client. -/
theorem health_ne_notConnected_iff {c : Connection Client} {answers : Client → Bool} :
    c.health answers ≠ .error .notConnected ↔ ∃ client, c.client = .ok client := by
  unfold health Connection.client
  cases c.client? <;> simp [Except.map]

/-- After any calls the client of a connection is the last one that an attempt gave, unless it was
    given up since; the server is asked exactly if there is one; there is one if the state is
    connected; and that it is connected whenever there is one fails exactly if an attempt that gave
    the client is followed by attempts that fail, and by nothing else. -/
theorem run_agrees_iff (calls : List (Call Client)) (answers : Client → Bool) :
    (∀ client, (run calls).client = .ok client ↔ Held calls client) ∧
    ((run calls).health answers ≠ .error .notConnected ↔
      ∃ client, (run calls).client = .ok client) ∧
    ((run calls).state = .connected → ∃ client, (run calls).client = .ok client) ∧
    (((∃ client, (run calls).client = .ok client) ↔ (run calls).state = .connected) ↔
      ¬ ∃ before client failures, calls = before ++ .connect (.connected client) :: failures ∧
        failures ≠ [] ∧ ∀ call ∈ failures, call.Fails) := by
  have hclient : ∀ client, (run calls).client = .ok client ↔ Held calls client :=
    fun client => client_eq_ok_iff.trans client?_run_iff
  have hconnected : (run calls).state = .connected → ∃ client, (run calls).client = .ok client := by
    intro h
    obtain ⟨client, hheld⟩ := exists_held_of_connected h
    exact ⟨client, (hclient client).mpr hheld⟩
  refine ⟨hclient, health_ne_notConnected_iff, hconnected, ?_⟩
  constructor
  · rintro hiff ⟨before, client, failures, rfl, hne, hfailures⟩
    have hstate := hiff.mp ⟨client, (hclient client).mpr ⟨before, failures, rfl, hfailures⟩⟩
    obtain ⟨before', client', heq⟩ := state_run_iff.mp hstate
    -- the last call failed, so it made no connection
    obtain ⟨failures, last, rfl⟩ := (List.eq_nil_or_concat' failures).resolve_left hne
    rw [← List.cons_append, ← List.append_assoc] at heq
    obtain ⟨-, rfl⟩ := List.append_singleton_inj.mp heq
    exact hfailures _ (List.mem_append_right _ (List.mem_singleton_self _))
  · intro hnone
    refine ⟨?_, hconnected⟩
    rintro ⟨client, hok⟩
    obtain ⟨before, failures, rfl, hfailures⟩ := (hclient client).mp hok
    rcases List.eq_nil_or_concat' failures with rfl | ⟨failures', last, rfl⟩
    · exact state_run_iff.mpr ⟨before, client, rfl⟩
    · exact absurd ⟨before, client, _, rfl, by simp, hfailures⟩ hnone

/-- A connection is made, and the next attempt finds that the server does not answer any more: the
    state is that the attempt failed, and the client is still handed out. -/
theorem run_leaves_client :
    (run [.connect (.connected ()), .connect (.noAnswer "timed out")]).client = .ok () ∧
    (run [.connect (.connected ()), .connect (.noAnswer "timed out")]).state
      = .failed "Connection error: Ping failed: timed out" ∧
    (run [.connect (.connected ()), .connect (.noAnswer "timed out")]).isConnected = false ∧
    (run [.connect (.connected ()), .connect (.noAnswer "timed out")]).health (fun _ => false)
      = .ok false := by
  refine ⟨rfl, ?_, ?_, rfl⟩ <;> decide

end Connection

end Keyset
