import Durare.Interaction
import Durare.Runs

/-! Any number of clients on one service, in any order of steps. Clients enter, go on by one
ask, or die between two asks; whoever else uses the service moves its state. What each
client is safe to do while the others act carries over to the whole run. -/
namespace Durare.Crowd

open Interaction

/-- A client that has begun, and what is left of it. -/
structure Member (τ Q : Type) (R : Q → Type) (α : Type) where
  tag : τ
  rest : Client Q R α

/-- The service's state, the clients that run, and the results of those that returned. -/
structure Scene (σ τ Q : Type) (R : Q → Type) (α : Type) where
  state : σ
  members : List (Member τ Q R α)
  returned : List (τ × α)

inductive Event (ο τ ι : Type) where
  | outside (move : ο)
  | enter (tag : τ)
  | tick (i : Nat) (input : ι)
  | crash (i : Nat)

/-- What the clients run, how the others move the state, and how an ask is answered. -/
structure Setting (σ τ ο ι Q : Type) (R : Q → Type) (α : Type) where
  program : τ → Client Q R α
  move : σ → ο → σ
  answer : ι → (q : Q) → σ → R q × σ

variable {σ τ ο ι Q : Type} {R : Q → Type} {α : Type} (setting : Setting σ τ ο ι Q R α)

def start (s : σ) : Scene σ τ Q R α := ⟨s, [], []⟩

def next (scene : Scene σ τ Q R α) : Event ο τ ι → Scene σ τ Q R α
  | .outside move => { scene with state := setting.move scene.state move }
  | .enter tag => { scene with members := scene.members ++ [⟨tag, setting.program tag⟩] }
  | .tick i input =>
    match scene.members[i]? with
    | none => scene
    | some m =>
      match m.rest with
      | .done a =>
        { scene with members := scene.members.eraseIdx i, returned := scene.returned ++ [(m.tag, a)] }
      | .ask q k =>
        let (reply, state) := setting.answer input q scene.state
        { scene with state := state, members := scene.members.set i { m with rest := k reply } }
      | .halt => scene
  | .crash i => { scene with members := scene.members.eraseIdx i }

abbrev run (events : List (Event ο τ ι)) (scene : Scene σ τ Q R α) : Scene σ τ Q R α :=
  Runs.run (next setting) events scene

def asks (scene : Scene σ τ Q R α) (i : Nat) : Option Q :=
  match scene.members[i]? with
  | some ⟨_, .ask q _⟩ => some q
  | _ => none

/-- The others move as they may, and every ask comes in a state that is proper for it. -/
def Allowed (others : σ → ο → Prop) (proper : ι → Q → σ → Prop) (scene : Scene σ τ Q R α) :
    Event ο τ ι → Prop
  | .outside move => others scene.state move
  | .tick i input => ∀ q ∈ asks scene i, proper input q scene.state
  | .enter _ | .crash _ => True

instance (others : σ → ο → Prop) (proper : ι → Q → σ → Prop) [∀ s move, Decidable (others s move)]
    [∀ input q s, Decidable (proper input q s)] (scene : Scene σ τ Q R α) :
    ∀ event, Decidable (Allowed others proper scene event)
  | .outside move => inferInstanceAs (Decidable (others scene.state move))
  | .tick i input => inferInstanceAs (Decidable (∀ q ∈ asks scene i, proper input q scene.state))
  | .enter _ | .crash _ => inferInstanceAs (Decidable True)

variable (world : World σ Q R) (may : τ → Q → σ → σ → Prop) (post : τ → α → σ → Prop)

/-- Every client is safe from here on, and every result meets its postcondition. -/
structure Sound (scene : Scene σ τ Q R α) : Prop where
  members : ∀ m ∈ scene.members, Safe world (may m.tag) (post m.tag) m.rest scene.state
  returned : ∀ r ∈ scene.returned, post r.1 r.2 scene.state

/-- The rule for programs that keep to what the others rely on. -/
structure Sound.Rule (others : σ → ο → Prop) (proper : ι → Q → σ → Prop) : Prop where
  safe : ∀ tag s, Safe world (may tag) (post tag) (setting.program tag) s
  served : ∀ input q s, proper input q s →
    world.serves q s (setting.answer input q s).1 (setting.answer input q s).2
  guarantee : ∀ tag q s s', may tag q s s' → world.rely s s'
  moved : ∀ s move, others s move → world.rely s (setting.move s move)
  stable : ∀ tag a s s', post tag a s → world.rely s s' → post tag a s'

variable {setting world may post}

theorem Sound.start (s : σ) : Sound world may post (start s : Scene σ τ Q R α) where
  members := fun _ member => nomatch member
  returned := fun _ member => nomatch member

theorem Sound.later {scene : Scene σ τ Q R α} {s : σ} (sound : Sound world may post scene)
    (stable : ∀ tag a s s', post tag a s → world.rely s s' → post tag a s') (moved : world.rely scene.state s) :
    Sound world may post { scene with state := s } where
  members m member := (sound.members m member).later moved
  returned r member := stable r.1 r.2 scene.state s (sound.returned r member) moved

variable {others : σ → ο → Prop} {proper : ι → Q → σ → Prop}

theorem asks_of {scene : Scene σ τ Q R α} {i : Nat} {m : Member τ Q R α} {q : Q} {k : R q → Client Q R α}
    (found : scene.members[i]? = some m) (rest : m.rest = .ask q k) : q ∈ asks scene i := by
  obtain ⟨tag, _⟩ := m
  cases rest
  simp [asks, found]

theorem Sound.next (rule : Sound.Rule setting world may post others proper) (scene : Scene σ τ Q R α)
    (event : Event ο τ ι) (allowed : Allowed others proper scene event) (sound : Sound world may post scene) :
    Sound world may post (next setting scene event) := by
  have erased (i : Nat) : ∀ m ∈ scene.members.eraseIdx i,
      Safe world (may m.tag) (post m.tag) m.rest scene.state :=
    fun m member => sound.members m (List.mem_of_mem_eraseIdx member)
  cases event with
  | outside move => exact sound.later rule.stable (rule.moved scene.state move allowed)
  | enter tag =>
    constructor
    · intro m member
      rcases List.mem_append.mp member with old | last
      · exact sound.members m old
      · rw [List.mem_singleton.mp last]
        exact rule.safe tag scene.state
    · exact sound.returned
  | crash i => exact ⟨erased i, sound.returned⟩
  | tick i input =>
    cases found : scene.members[i]? with
    | none =>
      simp only [Crowd.next, found]
      exact sound
    | some m =>
      have here := sound.members m (List.mem_of_getElem? found)
      cases rest : m.rest with
      | halt =>
        simp only [Crowd.next, found, rest]
        exact sound
      | done a =>
        rw [rest] at here
        simp only [Crowd.next, found, rest]
        constructor
        · exact erased i
        · intro r member
          rcases List.mem_append.mp member with old | last
          · exact sound.returned r old
          · rw [List.mem_singleton.mp last]
            exact here.result
      | ask q k =>
        rw [rest] at here
        have ready := allowed q (asks_of found rest)
        obtain ⟨did, later⟩ := here.served (rule.served input q scene.state ready)
        have moved := sound.later rule.stable (rule.guarantee _ _ _ _ did)
        simp only [Crowd.next, found, rest]
        constructor
        · intro other member
          rcases List.mem_or_eq_of_mem_set member with old | same
          · exact moved.members other old
          · rw [same]
            exact later
        · exact moved.returned

/-- What one event does to the state: the others move it, a client asks, or nothing happens. -/
inductive Change (setting : Setting σ τ ο ι Q R α) (may : τ → Q → σ → σ → Prop) (s : σ) : Event ο τ ι → σ → Prop where
  | moved (move : ο) : Change setting may s (.outside move) (setting.move s move)
  | asked (i : Nat) (input : ι) (tag : τ) (q : Q) (s' : σ) (did : may tag q s s') : Change setting may s (.tick i input) s'
  | ticked (i : Nat) (input : ι) : Change setting may s (.tick i input) s
  | entered (tag : τ) : Change setting may s (.enter tag) s
  | crashed (i : Nat) : Change setting may s (.crash i) s

theorem Sound.change (rule : Sound.Rule setting world may post others proper) (scene : Scene σ τ Q R α)
    (event : Event ο τ ι) (allowed : Allowed others proper scene event) (sound : Sound world may post scene) :
    Change setting may scene.state event (Crowd.next setting scene event).state := by
  cases event with
  | outside move => exact .moved move
  | enter tag => exact .entered tag
  | crash i => exact .crashed i
  | tick i input =>
    cases found : scene.members[i]? with
    | none =>
      simp only [Crowd.next, found]
      exact .ticked i input
    | some m =>
      cases rest : m.rest with
      | halt | done =>
        simp only [Crowd.next, found, rest]
        exact .ticked i input
      | ask q k =>
        have here := sound.members m (List.mem_of_getElem? found)
        rw [rest] at here
        have ready := allowed q (asks_of found rest)
        simp only [Crowd.next, found, rest]
        exact .asked i input m.tag q _ (here.served (rule.served input q scene.state ready)).1

theorem Sound.run (rule : Sound.Rule setting world may post others proper) {events : List (Event ο τ ι)} {s : σ}
    (allowed : Runs.Along (Crowd.next setting) (Allowed others proper) events (Crowd.start s)) :
    Sound world may post (run setting events (Crowd.start s)) :=
  Runs.invariant (fun scene event ok sound => sound.next rule scene event ok) allowed (.start s)

end Durare.Crowd
