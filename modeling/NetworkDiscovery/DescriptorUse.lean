import NetworkDiscovery.Library.HandleUse
import NetworkDiscovery.EndpointCheck

/-! The descriptors in the calls of a check. Each address is one session with at
most one descriptor, on all paths through the loop. -/

namespace NetworkDiscovery.SocketUtil
open HandleUse (Disciplined Use)

/-- What a call does with a descriptor. A negative one is none. -/
def role : SysCall → Use Int32
  | .socket fd => if fd < 0 then .other else .acquire fd
  | .getFlags fd => .use fd
  | .setFlags fd _ => .use fd
  | .connect fd => .use fd
  | .select fd _ _ => .use fd
  | .getsockopt fd _ => .use fd
  | .close fd => .release fd
  | .getaddrinfo _ _ => .other
  | .freeaddrinfo => .other

def descriptor? (call : SysCall) : Option Int32 :=
  match role call with
  | .use fd => some fd
  | .release fd => some fd
  | _ => none

theorem sessionCalls_role (timeoutMs : Int32) (p : Address) :
    ∀ call ∈ sessionCalls timeoutMs p, role call = .use p.sockfd := by
  intro call member
  simp only [sessionCalls, List.mem_append, List.mem_cons, List.not_mem_nil, or_false] at member
  rcases member with (rfl | rfl | rfl) | member
  · rfl
  · rfl
  · rfl
  · split at member
    · cases member
    · rcases List.mem_append.mp member with wait | check
      · split at wait
        · rw [List.mem_singleton.mp wait]; rfl
        · cases wait
      · split at check
        · cases check
        · rw [List.mem_singleton.mp check]; rfl

theorem disciplined_addressCalls (timeoutMs : Int32) (p : Address) :
    Disciplined ((addressCalls timeoutMs p).map role) := by
  rw [addressCalls]
  by_cases unopened : p.sockfd < 0
  · apply HandleUse.disciplined_other
    simp [unopened, role]
  · have uses : ∀ u ∈ (sessionCalls timeoutMs p).map role, u = .use p.sockfd := by
      intro u member
      obtain ⟨call, present, rfl⟩ := List.mem_map.mp member
      exact sessionCalls_role timeoutMs p call present
    have session := HandleUse.disciplined_session p.sockfd _ uses
    rw [if_neg unopened, List.map_cons, List.map_append, role, if_neg unopened]
    exact session

theorem disciplined_checkCalls (host : String) (port : Int32) (resolved : Option (List Address))
    (timeoutMs : Int32) : Disciplined ((checkCalls host port resolved timeoutMs).map role) := by
  rw [checkCalls_eq, List.map_cons, List.map_append]
  refine HandleUse.disciplined_append [_] _ rfl (HandleUse.disciplined_append _ _ ?_ ?_)
  · induction tried timeoutMs (resolved.getD []) with
    | nil => rfl
    | cons p rest ih =>
      rw [List.flatMap_cons, List.map_append]
      exact HandleUse.disciplined_append _ _ (disciplined_addressCalls timeoutMs p) ih
  · apply HandleUse.disciplined_other
    cases resolved <;> simp [role]

theorem role_acquire (call : SysCall) (fd : Int32) :
    role call = .acquire fd ↔ call = .socket fd ∧ ¬fd < 0 := by
  cases call with
  | socket other =>
    rw [role]
    by_cases unopened : other < 0
    · rw [if_pos unopened]
      refine iff_of_false nofun ?_
      rintro ⟨same, opened⟩
      cases same
      exact opened unopened
    · rw [if_neg unopened]
      refine ⟨fun same => ?_, fun same => ?_⟩
      · cases same
        exact ⟨rfl, unopened⟩
      · cases same.1
        rfl
  | _ => exact iff_of_false nofun fun same => nomatch same.1

theorem role_release (call : SysCall) (fd : Int32) : role call = .release fd ↔ call = .close fd := by
  cases call with
  | close other => exact ⟨fun same => by cases same; rfl, fun same => by cases same; rfl⟩
  | socket other =>
    rw [role]
    refine iff_of_false ?_ nofun
    split <;> nofun
  | _ => exact iff_of_false nofun nofun

theorem count_socket (calls : List SysCall) (fd : Int32) (opened : ¬fd < 0) :
    (calls.map role).count (.acquire fd) = calls.count (.socket fd) := by
  rw [List.count, List.countP_map, List.count]
  apply List.countP_congr
  intro call _
  simp [role_acquire, opened]

theorem count_close (calls : List SysCall) (fd : Int32) :
    (calls.map role).count (.release fd) = calls.count (.close fd) := by
  rw [List.count, List.countP_map, List.count]
  apply List.countP_congr
  intro call _
  simp [role_release]

theorem accepted_of_getsockopt (timeoutMs : Int32) (p : Address) (fd : Int32)
    (member : .getsockopt fd 0 ∈ addressCalls timeoutMs p) : Accepted timeoutMs p := by
  by_cases unopened : p.sockfd < 0
  · simp [addressCalls, unopened] at member
  · by_cases refused : Refused p
    · simp [addressCalls, sessionCalls, unopened, refused] at member
    · by_cases failed : WaitFailed timeoutMs p
      · by_cases waits : 0 ≤ timeoutMs <;>
          simp [addressCalls, sessionCalls, unopened, refused, failed, waits] at member
      · have found : p.soError = 0 := by
          by_cases waits : 0 ≤ timeoutMs <;>
            simp [addressCalls, sessionCalls, unopened, refused, failed, waits] at member <;>
            exact member.2.symm
        exact ⟨unopened, refused, failed, found⟩

theorem descriptor?_socket (fd : Int32) : descriptor? (.socket fd) = none := by
  rw [descriptor?, role]
  by_cases unopened : fd < 0 <;> simp [unopened]

theorem addressCalls_descriptor (timeoutMs : Int32) (p : Address) :
    ∃ rest, addressCalls timeoutMs p = .socket p.sockfd :: rest ∧
      ∀ call ∈ rest, descriptor? call = some p.sockfd := by
  refine ⟨_, rfl, fun call member => ?_⟩
  split at member
  · cases member
  · rcases List.mem_append.mp member with inside | last
    · rw [descriptor?, sessionCalls_role timeoutMs p call inside]
    · rw [List.mem_singleton.mp last]
      rfl

def LastOpened (earlier later : SysCall) : Prop :=
  ∀ fd other, earlier = .getsockopt fd 0 → later ≠ .socket other

theorem pairwise_addressCalls (timeoutMs : Int32) (p : Address) :
    (addressCalls timeoutMs p).Pairwise LastOpened := by
  have ⟨rest, calls, on_descriptor⟩ := addressCalls_descriptor timeoutMs p
  rw [calls, List.pairwise_cons]
  refine ⟨fun later _ fd other same => (nomatch same), List.pairwise_of_forall_mem_list ?_⟩
  intro earlier _ later member fd other _ same
  have found := on_descriptor later member
  rw [same, descriptor?_socket] at found
  cases found

theorem pairwise_tried (timeoutMs : Int32) (addresses : List Address) :
    ((tried timeoutMs addresses).flatMap (addressCalls timeoutMs)).Pairwise LastOpened := by
  induction addresses with
  | nil => exact List.Pairwise.nil
  | cons p rest ih =>
    rw [tried, List.flatMap_cons, List.pairwise_append]
    by_cases accepted : Accepted timeoutMs p
    · rw [if_pos accepted]
      exact ⟨pairwise_addressCalls timeoutMs p, List.Pairwise.nil, fun _ _ _ none => absurd none List.not_mem_nil⟩
    · rw [if_neg accepted]
      refine ⟨pairwise_addressCalls timeoutMs p, ih, fun earlier member later _ fd other same => ?_⟩
      rw [same] at member
      exact absurd (accepted_of_getsockopt timeoutMs p fd member) accepted

theorem pairwise_checkCalls (host : String) (port : Int32) (resolved : Option (List Address))
    (timeoutMs : Int32) : (checkCalls host port resolved timeoutMs).Pairwise LastOpened := by
  rw [checkCalls_eq, List.pairwise_cons, List.pairwise_append]
  refine ⟨fun _ _ _ _ same => (nomatch same), pairwise_tried timeoutMs _, ?_, ?_⟩
  · split
    · exact List.pairwise_singleton _ _
    · exact List.Pairwise.nil
  · intro earlier _ later last fd other _ same
    split at last
    · rw [List.mem_singleton.mp last] at same
      cases same
    · cases last

theorem count_freeaddrinfo (host : String) (port : Int32) (resolved : Option (List Address))
    (timeoutMs : Int32) : (checkCalls host port resolved timeoutMs).count .freeaddrinfo =
      if resolved.isSome then 1 else 0 := by
  have none : .freeaddrinfo ∉ (tried timeoutMs (resolved.getD [])).flatMap (addressCalls timeoutMs) := by
    intro member
    obtain ⟨p, _, call⟩ := List.mem_flatMap.mp member
    have ⟨rest, calls, on_descriptor⟩ := addressCalls_descriptor timeoutMs p
    rw [calls] at call
    rcases List.mem_cons.mp call with first | later
    · cases first
    · cases on_descriptor _ later
  rw [checkCalls_eq, List.count_cons_of_ne (by simp), List.count_append,
    List.count_eq_zero_of_not_mem none, Nat.zero_add]
  split <;> rfl

end NetworkDiscovery.SocketUtil
