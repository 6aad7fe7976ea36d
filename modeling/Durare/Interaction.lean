import Mathlib.Logic.Basic

/-! Clients of a service that others use at the same time: programs that ask, wait for the
reply and go on, and what can be said of them when others act between any two asks. -/
namespace Durare.Interaction

/-- A client returns, asks and goes on with the reply, or never gets any further. -/
inductive Client (Q : Type) (R : Q → Type) (α : Type) where
  | done (a : α)
  | ask (q : Q) (k : R q → Client Q R α)
  | halt

namespace Client

variable {Q : Type} {R : Q → Type} {α β : Type}

def bind : Client Q R α → (α → Client Q R β) → Client Q R β
  | .done a, f => f a
  | .ask q k, f => .ask q fun r => (k r).bind f
  | .halt, _ => .halt

instance : Monad (Client Q R) where
  pure := .done
  bind := bind

@[simp] theorem pure_eq (a : α) : (pure a : Client Q R α) = .done a := rfl
@[simp] theorem bind_eq (c : Client Q R α) (f : α → Client Q R β) : c >>= f = c.bind f := rfl
@[simp] theorem done_bind (a : α) (f : α → Client Q R β) : (done a : Client Q R α).bind f = f a := rfl
@[simp] theorem ask_bind (q : Q) (k : R q → Client Q R α) (f : α → Client Q R β) :
    (ask q k).bind f = .ask q fun r => (k r).bind f := rfl
@[simp] theorem halt_bind (f : α → Client Q R β) : (halt : Client Q R α).bind f = .halt := rfl

def once (q : Q) : Client Q R (R q) := .ask q .done

@[simp] theorem once_bind (q : Q) (f : R q → Client Q R β) :
    (once q : Client Q R (R q)).bind f = .ask q f := rfl

/-- A client of one service as a client of a larger one. -/
def embed {Q' : Type} {R' : Q' → Type} (into : Q → Q') (back : (q : Q) → R' (into q) → R q) :
    Client Q R α → Client Q' R' α
  | .done a => .done a
  | .ask q k => .ask (into q) fun r => (k (back q r)).embed into back
  | .halt => .halt

/-- Each ask of the client carried out by a client of another service. -/
def expand {Q' : Type} {R' : Q' → Type} (act : (q : Q) → Client Q' R' (R q)) : Client Q R α → Client Q' R' α
  | .done a => .done a
  | .ask q k => (act q).bind fun r => (k r).expand act
  | .halt => .halt

theorem bind_assoc {γ : Type} (c : Client Q R α) (f : α → Client Q R β) (g : β → Client Q R γ) :
    (c.bind f).bind g = c.bind fun a => (f a).bind g := by
  induction c with
  | done a => rfl
  | ask q k ih => simp only [ask_bind, ih]
  | halt => rfl

theorem embed_bind {Q' : Type} {R' : Q' → Type} {into : Q → Q'} {back : (q : Q) → R' (into q) → R q}
    (c : Client Q R α) (f : α → Client Q R β) :
    (c.bind f).embed into back = (c.embed into back).bind fun a => (f a).embed into back := by
  induction c with
  | done a => rfl
  | ask q k ih => simp only [ask_bind, embed, ih]
  | halt => rfl

/-- The client against a service of one user that answers some of the asks: its result and the state
it leaves, or nothing when an ask is not answered. -/
def eval {σ : Type} (answer : (q : Q) → σ → Option (R q × σ)) : Client Q R α → σ → Option (α × σ)
  | .done a, s => some (a, s)
  | .ask q k, s =>
    match answer q s with
    | some (reply, s') => (k reply).eval answer s'
    | none => none
  | .halt, _ => none

theorem eval_ask {σ : Type} {answer : (q : Q) → σ → Option (R q × σ)} {q : Q} {k : R q → Client Q R α} {s s' : σ}
    {reply : R q} (answered : answer q s = some (reply, s')) :
    (ask q k).eval answer s = (k reply).eval answer s' := by
  simp only [eval, answered]

theorem eval_bind {σ : Type} {answer : (q : Q) → σ → Option (R q × σ)} (c : Client Q R α)
    (f : α → Client Q R β) (s : σ) :
    (c.bind f).eval answer s = (c.eval answer s).bind fun ended => (f ended.1).eval answer ended.2 := by
  induction c generalizing s with
  | done a => rfl
  | ask q k ih =>
    simp only [ask_bind, eval]
    cases answer q s with
    | none => rfl
    | some replied => exact ih replied.1 replied.2
  | halt => rfl

/-- Whatever it is replied, the client asks only for what `P` allows and its result meets `post`. -/
def Keeps (P : Q → Prop) (post : α → Prop) : Client Q R α → Prop
  | .done a => post a
  | .ask q k => P q ∧ ∀ r, (k r).Keeps P post
  | .halt => True

theorem Keeps.mono {P : Q → Prop} {post goal : α → Prop} {c : Client Q R α} (keeps : c.Keeps P post)
    (weaker : ∀ a, post a → goal a) : c.Keeps P goal := by
  induction c with
  | done a => exact weaker a keeps
  | ask q k ih => exact ⟨keeps.1, fun r => ih r (keeps.2 r)⟩
  | halt => trivial

theorem Keeps.imp {P P' : Q → Prop} {post : α → Prop} {c : Client Q R α} (keeps : c.Keeps P post)
    (weaker : ∀ q, P q → P' q) : c.Keeps P' post := by
  induction c with
  | done a => exact keeps
  | ask q k ih => exact ⟨weaker q keeps.1, fun r => ih r (keeps.2 r)⟩
  | halt => trivial

theorem Keeps.bind {P : Q → Prop} {post : α → Prop} {goal : β → Prop} {c : Client Q R α}
    {f : α → Client Q R β} (keeps : c.Keeps P post) (rest : ∀ a, post a → (f a).Keeps P goal) :
    (c.bind f).Keeps P goal := by
  induction c with
  | done a => exact rest a keeps
  | ask q k ih => exact ⟨keeps.1, fun r => ih r (keeps.2 r)⟩
  | halt => trivial

theorem Keeps.embed {Q' : Type} {R' : Q' → Type} {into : Q → Q'} {back : (q : Q) → R' (into q) → R q}
    {P : Q' → Prop} {post : α → Prop} {c : Client Q R α} (keeps : c.Keeps (fun q => P (into q)) post) :
    (c.embed into back).Keeps P post := by
  induction c with
  | done a => exact keeps
  | ask q k ih => exact ⟨keeps.1, fun r => ih _ (keeps.2 _)⟩
  | halt => trivial

/-- Whatever it is replied, the client asks only for what `P` allows, and it comes to its end. -/
def Only (P : Q → Prop) : Client Q R α → Prop
  | .done _ => True
  | .ask q k => P q ∧ ∀ r, (k r).Only P
  | .halt => False

theorem Only.bind {P : Q → Prop} {c : Client Q R α} {f : α → Client Q R β} (only : c.Only P)
    (rest : ∀ a, (f a).Only P) : (c.bind f).Only P := by
  induction c with
  | done a => exact rest a
  | ask q k ih => exact ⟨only.1, fun r => ih r (only.2 r)⟩
  | halt => exact only.elim

end Client

/-- A client that may fail. -/
def Fallible (ε Q : Type) (R : Q → Type) (α : Type) : Type := Client Q R (Except ε α)

namespace Fallible

variable {ε Q : Type} {R : Q → Type} {α β : Type}

def bind (act : Fallible ε Q R α) (f : α → Fallible ε Q R β) : Fallible ε Q R β :=
  Client.bind act fun
    | .ok a => f a
    | .error e => Client.done (.error e)

instance : Monad (Fallible ε Q R) where
  pure a := Client.done (.ok a)
  bind := bind

def throw (error : ε) : Fallible ε Q R α := Client.done (.error error)

def ofExcept (result : Except ε α) : Fallible ε Q R α := Client.done result

def get (q : Q) : Fallible ε Q R (R q) := Client.ask q fun reply => Client.done (.ok reply)

def attempt (act : Fallible ε Q R α) :
    Fallible ε Q R (Except ε α) := Client.bind act fun result => Client.done (.ok result)

def halt : Fallible ε Q R α := Client.halt

end Fallible

/-- A service under concurrent use: what the others may do, and how it replies. -/
structure World (σ Q : Type) (R : Q → Type) where
  rely : σ → σ → Prop
  serves : (q : Q) → σ → R q → σ → Prop
  refl : ∀ s, rely s s
  trans : ∀ {a b c}, rely a b → rely b c → rely a c

variable {σ Q : Type} {R : Q → Type} {α β : Type} (world : World σ Q R)

/-- From `s`, whatever the others do, every ask of the client does only what `may` allows
and a result meets `post`. -/
def Safe (may : Q → σ → σ → Prop) (post : α → σ → Prop) : Client Q R α → σ → Prop
  | .done a, s => ∀ s', world.rely s s' → post a s'
  | .ask q k, s => ∀ s', world.rely s s' → ∀ r s'', world.serves q s' r s'' →
      may q s' s'' ∧ Safe may post (k r) s''
  | .halt, _ => True

variable {world} {may : Q → σ → σ → Prop} {post : α → σ → Prop}

theorem Safe.later {c : Client Q R α} {s s' : σ} (safe : Safe world may post c s) (moved : world.rely s s') :
    Safe world may post c s' := by
  cases c with
  | done a => exact fun t later => safe t (world.trans moved later)
  | ask q k => exact fun t later => safe t (world.trans moved later)
  | halt => trivial

theorem Safe.mono {post' : α → σ → Prop} {c : Client Q R α} {s : σ} (safe : Safe world may post c s)
    (weaker : ∀ a s, post a s → post' a s) : Safe world may post' c s := by
  induction c generalizing s with
  | done a => exact fun t later => weaker a t (safe t later)
  | ask q k ih =>
    intro t later r t' served
    obtain ⟨allowed, rest⟩ := safe t later r t' served
    exact ⟨allowed, ih r rest⟩
  | halt => trivial

/-- Sequencing: the second part starts wherever the first one can end. -/
theorem Safe.bind {goal : β → σ → Prop} {c : Client Q R α} {f : α → Client Q R β} {s : σ}
    (safe : Safe world may post c s) (rest : ∀ a s, post a s → Safe world may goal (f a) s) :
    Safe world may goal (c.bind f) s := by
  induction c generalizing s with
  | done a => exact rest a s (safe s (world.refl s))
  | ask q k ih =>
    intro t later r t' served
    obtain ⟨allowed, next⟩ := safe t later r t' served
    exact ⟨allowed, ih r next⟩
  | halt => trivial

theorem Safe.seq {ε : Type} {post : Except ε α → σ → Prop} {goal : Except ε β → σ → Prop} {act : Fallible ε Q R α}
    {f : α → Fallible ε Q R β} {s : σ} (safe : Safe world may post act s)
    (rest : ∀ a s, post (.ok a) s → Safe world may goal (f a) s)
    (failed : ∀ e s, post (.error e) s → ∀ s', world.rely s s' → goal (.error e) s') :
    Safe world may goal (act >>= f : Fallible ε Q R β) s := by
  apply Safe.bind (α := Except ε α) safe
  intro result s ended
  cases result with
  | ok a => exact rest a s ended
  | error e => exact failed e s ended

theorem Safe.attempted {ε : Type} {post : Except ε α → σ → Prop} {goal : Except ε (Except ε α) → σ → Prop}
    {act : Fallible ε Q R α} {s : σ} (safe : Safe world may post act s)
    (handed : ∀ r s, post r s → ∀ s', world.rely s s' → goal (.ok r) s') : Safe world may goal act.attempt s := by
  apply Safe.bind (α := Except ε α) safe
  intro result s ended
  exact handed result s ended

theorem Safe.result {a : α} {s : σ} (safe : Safe world may post (.done a) s) : post a s := safe s (world.refl s)

theorem Safe.served {q : Q} {k : R q → Client Q R α} {s s' : σ} {r : R q}
    (safe : Safe world may post (.ask q k) s) (reply : world.serves q s r s') :
    may q s s' ∧ Safe world may post (k r) s' := safe s (world.refl s) r s' reply

theorem Safe.weaken {may' : Q → σ → σ → Prop} {c : Client Q R α} {s : σ} (safe : Safe world may post c s)
    (weaker : ∀ q s s', may q s s' → may' q s s') : Safe world may' post c s := by
  induction c generalizing s with
  | done a => exact safe
  | ask q k ih =>
    intro t later r t' served
    obtain ⟨allowed, rest⟩ := safe t later r t' served
    exact ⟨weaker q t t' allowed, ih r rest⟩
  | halt => trivial

theorem Safe.free {c : Client Q R α} {s : σ} (safe : Safe world may post c s) :
    Safe world (fun _ _ _ => True) post c s := safe.weaken fun _ _ _ _ => trivial

theorem Safe.of_keeps {P : Q → Prop} {result : α → Prop} {c : Client Q R α} (keeps : c.Keeps P result)
    (allowed : ∀ q s r s', P q → world.serves q s r s' → may q s s') (s : σ) :
    Safe world may (fun a _ => result a) c s := by
  induction c generalizing s with
  | done a => exact fun _ _ => keeps
  | ask q k ih =>
    intro t _ r t' served
    exact ⟨allowed q t r t' keeps.1 served, ih r (keeps.2 r) t'⟩
  | halt => trivial

/-- A client of one service is as safe as a client of a larger one that serves its asks no
differently. -/
theorem Safe.embed {Q' : Type} {R' : Q' → Type} {world' : World σ Q' R'} {into : Q → Q'}
    {back : (q : Q) → R' (into q) → R q} {may' : Q' → σ → σ → Prop} {c : Client Q R α} {s : σ}
    (safe : Safe world may post c s) (moved : ∀ s s', world'.rely s s' → world.rely s s')
    (served : ∀ q s r s', world'.serves (into q) s r s' → world.serves q s (back q r) s')
    (allowed : ∀ q s s', may q s s' → may' (into q) s s') :
    Safe world' may' post (c.embed into back) s := by
  induction c generalizing s with
  | done a => exact fun t later => safe t (moved s t later)
  | ask q k ih =>
    intro t later r t' replied
    obtain ⟨here, rest⟩ := safe t (moved s t later) (back q r) t' (served q t r t' replied)
    exact ⟨allowed q t t' here, ih (back q r) rest⟩
  | halt => trivial

/-- What each of two rules allows of one client. -/
theorem Safe.both {may' : Q → σ → σ → Prop} {post' : α → σ → Prop} {c : Client Q R α} {s : σ}
    (safe : Safe world may post c s) (safe' : Safe world may' post' c s) :
    Safe world (fun q s s' => may q s s' ∧ may' q s s') (fun a s => post a s ∧ post' a s) c s := by
  induction c generalizing s with
  | done a => exact fun t later => ⟨safe t later, safe' t later⟩
  | ask q k ih =>
    intro t later r t' served
    obtain ⟨allowed, rest⟩ := safe t later r t' served
    obtain ⟨allowed', rest'⟩ := safe' t later r t' served
    exact ⟨⟨allowed, allowed'⟩, ih r rest rest'⟩
  | halt => trivial

theorem Safe.and {may' : Q → σ → σ → Prop} {post' : α → σ → Prop} {c : Client Q R α} {s : σ}
    (safe : Safe world may post c s) (safe' : Safe world may' post' c s) :
    Safe world may (fun a s => post a s ∧ post' a s) c s := (safe.both safe').weaken fun _ _ _ both => both.1

/-- From `s`, whatever the others do, the client ends within so many asks and its result
meets `post`. -/
def Returns (world : World σ Q R) (post : α → σ → Prop) : Client Q R α → Nat → σ → Prop
  | .done a, _, s => ∀ s', world.rely s s' → post a s'
  | .ask q k, n + 1, s => ∀ s', world.rely s s' → ∀ r s'', world.serves q s' r s'' → Returns world post (k r) n s''
  | .ask _ _, 0, _ => False
  | .halt, _, _ => False

theorem Returns.later {c : Client Q R α} {n : Nat} {s s' : σ} (returns : Returns world post c n s)
    (moved : world.rely s s') : Returns world post c n s' := by
  cases c with
  | done a => exact fun t later => returns t (world.trans moved later)
  | ask q k =>
    cases n with
    | zero => exact returns
    | succ n => exact fun t later => returns t (world.trans moved later)
  | halt => exact returns

theorem Returns.mono {post' : α → σ → Prop} {c : Client Q R α} {n : Nat} {s : σ} (returns : Returns world post c n s)
    (weaker : ∀ a s, post a s → post' a s) : Returns world post' c n s := by
  induction c generalizing n s with
  | done a => exact fun t later => weaker a t (returns t later)
  | ask q k ih =>
    cases n with
    | zero => exact absurd returns id
    | succ n => exact fun t later r t' served => ih r (returns t later r t' served)
  | halt => exact absurd returns id

theorem Returns.embed {Q' : Type} {R' : Q' → Type} {world' : World σ Q' R'} {into : Q → Q'}
    {back : (q : Q) → R' (into q) → R q} {c : Client Q R α} {n : Nat} {s : σ} (returns : Returns world post c n s)
    (moved : ∀ s s', world'.rely s s' → world.rely s s')
    (served : ∀ q s r s', world'.serves (into q) s r s' → world.serves q s (back q r) s') :
    Returns world' post (c.embed into back) n s := by
  induction c generalizing s n with
  | done a => exact fun t later => returns t (moved s t later)
  | ask q k ih =>
    cases n with
    | zero => exact returns
    | succ n =>
      intro t later r t' replied
      exact ih (back q r) (returns t (moved s t later) (back q r) t' (served q t r t' replied))
  | halt => exact returns

theorem Returns.longer {c : Client Q R α} {n m : Nat} {s : σ} (returns : Returns world post c n s) (more : n ≤ m) :
    Returns world post c m s := by
  induction c generalizing n m s with
  | done a => exact returns
  | ask q k ih =>
    cases n with
    | zero => exact absurd returns id
    | succ n =>
      cases m with
      | zero => omega
      | succ m =>
        intro t later r t' served
        exact ih r (returns t later r t' served) (by omega)
  | halt => exact absurd returns id

theorem Returns.bind {goal : β → σ → Prop} {c : Client Q R α} {f : α → Client Q R β} {n m : Nat} {s : σ}
    (returns : Returns world post c n s) (rest : ∀ a s, post a s → Returns world goal (f a) m s) :
    Returns world goal (c.bind f) (n + m) s := by
  induction c generalizing n s with
  | done a => exact (rest a s (returns s (world.refl s))).longer (by omega)
  | ask q k ih =>
    cases n with
    | zero => exact absurd returns id
    | succ n =>
      rw [Nat.succ_add]
      intro t later r t' served
      exact ih r (returns t later r t' served)
  | halt => exact absurd returns id

/-- From `s`, whatever the others do, the client returns and its result meets `post`. A client asks only
so often, so it fails to return only where it gets no further. -/
def Ends (world : World σ Q R) (post : α → σ → Prop) : Client Q R α → σ → Prop
  | .done a, s => ∀ s', world.rely s s' → post a s'
  | .ask q k, s => ∀ s', world.rely s s' → ∀ r s'', world.serves q s' r s'' → Ends world post (k r) s''
  | .halt, _ => False

theorem Ends.mono {post' : α → σ → Prop} {c : Client Q R α} {s : σ} (ends : Ends world post c s)
    (weaker : ∀ a s, post a s → post' a s) : Ends world post' c s := by
  induction c generalizing s with
  | done a => exact fun t later => weaker a t (ends t later)
  | ask q k ih => exact fun t later r t' served => ih r (ends t later r t' served)
  | halt => exact absurd ends id

theorem Ends.bind {goal : β → σ → Prop} {c : Client Q R α} {f : α → Client Q R β} {s : σ}
    (ends : Ends world post c s) (rest : ∀ a s, post a s → Ends world goal (f a) s) :
    Ends world goal (c.bind f) s := by
  induction c generalizing s with
  | done a => exact rest a s (ends s (world.refl s))
  | ask q k ih => exact fun t later r t' served => ih r (ends t later r t' served)
  | halt => exact absurd ends id

theorem Ends.seq {ε : Type} {post : Except ε α → σ → Prop} {goal : Except ε β → σ → Prop} {act : Fallible ε Q R α}
    {f : α → Fallible ε Q R β} {s : σ} (ends : Ends world post act s)
    (rest : ∀ a s, post (.ok a) s → Ends world goal (f a) s)
    (failed : ∀ e s, post (.error e) s → ∀ s', world.rely s s' → goal (.error e) s') :
    Ends world goal (act >>= f : Fallible ε Q R β) s := by
  apply Ends.bind (α := Except ε α) ends
  intro result s ended
  cases result with
  | ok a => exact rest a s ended
  | error e => exact failed e s ended

theorem Ends.attempted {ε : Type} {post : Except ε α → σ → Prop} {goal : Except ε (Except ε α) → σ → Prop}
    {act : Fallible ε Q R α} {s : σ} (ends : Ends world post act s)
    (handed : ∀ r s, post r s → ∀ s', world.rely s s' → goal (.ok r) s') : Ends world goal act.attempt s := by
  apply Ends.bind (α := Except ε α) ends
  intro result s ended
  exact handed result s ended

inductive Ran (world : World σ Q R) : Client Q R α → σ → α → σ → Prop where
  | done {a : α} {s s' : σ} (moved : world.rely s s') : Ran world (.done a) s a s'
  | ask {q : Q} {k : R q → Client Q R α} {s s' s'' t : σ} {r : R q} {a : α} (moved : world.rely s s')
      (served : world.serves q s' r s'') (rest : Ran world (k r) s'' a t) : Ran world (.ask q k) s a t

theorem Safe.ran {c : Client Q R α} {s t : σ} {a : α} (safe : Safe world may post c s) (ran : Ran world c s a t) :
    post a t := by
  induction ran with
  | done moved => exact safe _ moved
  | ask moved served _ ih => exact ih (safe _ moved _ _ served).2

theorem Ends.ran {c : Client Q R α} {s t : σ} {a : α} (ends : Ends world post c s) (ran : Ran world c s a t) :
    post a t := by
  induction ran with
  | done moved => exact ends _ moved
  | ask moved served _ ih => exact ih (ends _ moved _ _ served)

theorem Returns.ran {c : Client Q R α} {n : Nat} {s t : σ} {a : α} (returns : Returns world post c n s)
    (ran : Ran world c s a t) : post a t := by
  induction ran generalizing n with
  | done moved => exact returns _ moved
  | ask moved served _ ih =>
    cases n with
    | zero => exact absurd returns id
    | succ n => exact ih (returns _ moved _ _ served)

/-- Where every ask is answered, a client that returns has a run. -/
theorem Returns.runs {c : Client Q R α} {n : Nat} {s : σ} (returns : Returns world post c n s)
    (total : ∀ q s, ∃ r s', world.serves q s r s') : ∃ a t, Ran world c s a t := by
  induction c generalizing n s with
  | done a => exact ⟨a, s, .done (world.refl s)⟩
  | ask q k ih =>
    cases n with
    | zero => exact absurd returns id
    | succ n =>
      obtain ⟨r, s', served⟩ := total q s
      obtain ⟨a, t, rest⟩ := ih r (returns s (world.refl s) r s' served)
      exact ⟨a, t, .ask (world.refl s) served rest⟩
  | halt => exact absurd returns id

end Durare.Interaction
