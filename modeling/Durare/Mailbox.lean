import Mathlib.Data.Set.Function
import Mathlib.Data.List.Basic

/-! Mailboxes whose messages are appended and taken in place, and the receipts they are taken
against. A receipt names the key of a record; the pairing of taken messages and receipts is
one to one as long as a receipt is only given where its record was missing. -/
namespace Durare.Mailbox

variable {μ ρ κ ω : Type}

def Kept (later : μ → μ → Prop) (mail mail' : List μ) : Prop :=
  ∀ (place : Nat) (m : μ), mail[place]? = some m → ∃ m', mail'[place]? = some m' ∧ later m m'

theorem Kept.refl {later : μ → μ → Prop} (same : ∀ m, later m m) (mail : List μ) : Kept later mail mail :=
  fun _ m here => ⟨m, here, same m⟩

theorem Kept.trans {later : μ → μ → Prop} (compose : ∀ a b c, later a b → later b c → later a c)
    {first second third : List μ} (one : Kept later first second) (two : Kept later second third) :
    Kept later first third := by
  intro place m here
  obtain ⟨m', there, moved⟩ := one place m here
  obtain ⟨m'', last, moved'⟩ := two place m' there
  exact ⟨m'', last, compose _ _ _ moved moved'⟩

theorem Kept.append {later : μ → μ → Prop} (same : ∀ m, later m m) (mail fresh : List μ) :
    Kept later mail (mail ++ fresh) := by
  intro place m here
  obtain ⟨inside, -⟩ := List.getElem?_eq_some_iff.mp here
  exact ⟨m, by rw [List.getElem?_append_left inside]; exact here, same m⟩

theorem Kept.modify {later : μ → μ → Prop} (same : ∀ m, later m m) (take : μ → μ) (mail : List μ) (place : Nat)
    (taken : ∀ m, mail[place]? = some m → later m (take m)) : Kept later mail (mail.modify place take) := by
  intro other m here
  by_cases equal : place = other
  · subst equal
    exact ⟨take m, by simp [here], taken m here⟩
  · exact ⟨m, by simp [equal, here], same m⟩

/-- What a mark on one message does not touch is the same of every message. -/
theorem map_modify {α : Type} (f : μ → α) (mark : μ → μ) (same : ∀ m, f (mark m) = f m) (mail : List μ) (place : Nat) :
    (mail.modify place mark).map f = mail.map f := by
  apply List.ext_getElem?
  intro p
  by_cases here : place = p
  · simp [here, same, Function.comp_def]
  · simp [here]

variable (taken : μ → Bool) (key : ρ → κ) (fits : ρ → μ → ω → Prop)

def places (mail : List μ) : Set Nat := {place | ∃ m, mail[place]? = some m ∧ taken m = true}

/-- Receipts and taken messages correspond one to one, each pair with the record under the
receipt's key, and no two receipts share a key. -/
structure Matched (mail : List μ) (records : κ → Option ω) (log : List ρ) : Prop where
  paired : ∃ place : ρ → Nat, Set.BijOn place {r | r ∈ log} (places taken mail) ∧
    ∀ r ∈ log, ∃ m w, mail[place r]? = some m ∧ records (key r) = some w ∧ fits r m w
  apart : Set.InjOn key {r | r ∈ log}

variable {taken key fits} {mail : List μ} {records records' : κ → Option ω} {log : List ρ}

theorem Matched.empty (records : κ → Option ω) : Matched taken key fits [] records [] where
  paired := by
    refine ⟨fun _ => 0, ?_, by simp⟩
    have nothing : places taken ([] : List μ) = ∅ := by simp [places]
    rw [nothing]
    simp
  apart := by simp [Set.InjOn]

/-- Records may come and none may change. -/
theorem Matched.kept (matched : Matched taken key fits mail records log)
    (kept : ∀ k w, records k = some w → records' k = some w) : Matched taken key fits mail records' log := by
  obtain ⟨place, bijection, pairs⟩ := matched.paired
  refine ⟨⟨place, bijection, ?_⟩, matched.apart⟩
  intro r member
  obtain ⟨m, w, here, stored, fit⟩ := pairs r member
  exact ⟨m, w, here, kept _ _ stored, fit⟩

/-- New messages wait: they change no pair. -/
theorem Matched.sent {fresh : List μ} (matched : Matched taken key fits mail records log)
    (waiting : ∀ m ∈ fresh, taken m = false) : Matched taken key fits (mail ++ fresh) records log := by
  obtain ⟨place, bijection, pairs⟩ := matched.paired
  have same : places taken (mail ++ fresh) = places taken mail := by
    ext p
    constructor
    · rintro ⟨m, here, done⟩
      by_cases inside : p < mail.length
      · rw [List.getElem?_append_left inside] at here
        exact ⟨m, here, done⟩
      · rw [List.getElem?_append_right (by omega)] at here
        have unread := waiting m (List.mem_of_getElem? here)
        rw [unread] at done
        cases done
    · rintro ⟨m, here, done⟩
      obtain ⟨inside, -⟩ := List.getElem?_eq_some_iff.mp here
      exact ⟨m, by rw [List.getElem?_append_left inside]; exact here, done⟩
  refine ⟨⟨place, same ▸ bijection, ?_⟩, matched.apart⟩
  intro r member
  obtain ⟨m, w, here, stored, fit⟩ := pairs r member
  obtain ⟨inside, -⟩ := List.getElem?_eq_some_iff.mp here
  exact ⟨m, w, by rw [List.getElem?_append_left inside]; exact here, stored, fit⟩

theorem places_modify {take : μ → μ} {spot : Nat} {m : μ} (here : mail[spot]? = some m)
    (marks : taken (take m) = true) : places taken (mail.modify spot take) = insert spot (places taken mail) := by
  ext p
  by_cases same : spot = p
  · subst same
    simp [places, List.getElem?_modify, here, marks]
  · have other : p ≠ spot := fun equal => same equal.symm
    simp [places, List.getElem?_modify, same, other]

/-- Taking a waiting message against a new record adds one pair. -/
theorem Matched.took {take : μ → μ} {spot : Nat} {m : μ} {r : ρ} {w : ω}
    (matched : Matched taken key fits mail records log) (here : mail[spot]? = some m) (waiting : taken m = false)
    (marks : taken (take m) = true) (vacant : records (key r) = none)
    (kept : ∀ k w, records k = some w → records' k = some w) (recorded : records' (key r) = some w)
    (fit : fits r (take m) w) : Matched taken key fits (mail.modify spot take) records' (log ++ [r]) := by
  classical
  obtain ⟨place, bijection, pairs⟩ := matched.paired
  have new : r ∉ log := by
    intro member
    obtain ⟨-, w', -, stored, -⟩ := pairs r member
    rw [vacant] at stored
    cases stored
  have elsewhere : spot ∉ places taken mail := by
    rintro ⟨m', here', done⟩
    rw [here] at here'
    cases here'
    rw [waiting] at done
    cases done
  have members : {q | q ∈ log ++ [r]} = insert r {q | q ∈ log} := by
    ext q
    simp [or_comm]
  have old : Set.EqOn place (Function.update place r spot) {q | q ∈ log} := by
    intro q member
    have different : q ≠ r := by rintro rfl; exact new member
    simp [different]
  refine ⟨⟨Function.update place r spot, ?_, ?_⟩, ?_⟩
  · rw [members, places_modify here marks]
    have moved := (bijection.congr old).insert (a := r) (by simpa using elsewhere)
    simpa using moved
  · intro q member
    rcases List.mem_append.mp member with before | last
    · have different : q ≠ r := by rintro rfl; exact new before
      obtain ⟨m', w', there, stored, fit'⟩ := pairs q before
      have apart : spot ≠ place q := by
        intro equal
        exact elsewhere (equal ▸ bijection.mapsTo before)
      refine ⟨m', w', ?_, kept _ _ stored, fit'⟩
      simp [different, apart, there]
    · obtain rfl : q = r := by simpa using last
      exact ⟨take m, w, by simp [here], recorded, fit⟩
  · rw [members]
    refine (Set.injOn_insert (by simpa using new)).mpr ⟨matched.apart, ?_⟩
    rintro ⟨q, member, equal⟩
    obtain ⟨-, w', -, stored, -⟩ := pairs q member
    rw [equal, vacant] at stored
    cases stored

/-! A box holds each id once. A post under an id is taken in when the box does not hold it yet. -/

section Posts

variable {ι α β : Type}

/-- The posts under the ids that matter, each with whether it was taken in, and the ids in the box. -/
structure Posted (counts : ι → Prop) (log : List (ι × Bool)) (ids : List ι) : Prop where
  first : ∀ earlier post later, log = earlier ++ post :: later → (post.2 = true ↔ post.1 ∉ earlier.map (·.1))
  held : ∀ id, counts id → (id ∈ ids ↔ id ∈ log.map (·.1))

theorem Posted.empty (counts : ι → Prop) : Posted counts [] [] where
  first earlier post later same := by simp at same
  held id _ := Iff.rfl

/-- A post under an id that matters is taken in exactly when the box does not hold the id. -/
theorem Posted.post {counts : ι → Prop} {log : List (ι × Bool)} {ids ids' : List ι} {id : ι}
    (posted : Posted counts log ids) (taken : Bool) (here : counts id) (fresh : taken = true ↔ id ∉ ids)
    (after : ∀ other, other ∈ ids' ↔ other ∈ ids ∨ other = id) : Posted counts (log ++ [(id, taken)]) ids' where
  first earlier post later same := by
    rcases List.eq_nil_or_concat later with rfl | ⟨later, last, rfl⟩
    · obtain ⟨rfl, same⟩ := List.append_inj' same rfl
      obtain rfl : post = (id, taken) := by simpa using same.symm
      rw [← posted.held id here]
      exact fresh
    · have shape : earlier ++ post :: later.concat last = (earlier ++ post :: later) ++ [last] := by simp
      rw [shape] at same
      exact posted.first earlier post later (List.append_inj' same rfl).1
  held other counted := by
    rw [after, posted.held other counted]
    simp

/-- What comes into the box beside the posts that matter. -/
theorem Posted.beside {counts : ι → Prop} {log : List (ι × Bool)} {ids ids' : List ι} (posted : Posted counts log ids)
    (same : ∀ id, counts id → (id ∈ ids' ↔ id ∈ ids)) : Posted counts log ids' where
  first := posted.first
  held id counted := (same id counted).trans (posted.held id counted)

/-- Along a list of names, an id is new exactly where its name is, if and only if different names of
the list have different ids. -/
theorem new_iff_injOn (id : α → β) (names : List α) :
    (∀ earlier name later, names = earlier ++ name :: later → (id name ∉ earlier.map id ↔ name ∉ earlier)) ↔
      Set.InjOn id {name | name ∈ names} := by
  constructor
  · intro agree
    -- Of two names with one id, the later of their first places is told apart by its name only.
    have ordered : ∀ earlier name later other, names = earlier ++ name :: later → name ∉ earlier →
        other ∈ earlier → id other ≠ id name := by
      intro earlier name later other split new before same
      exact (agree earlier name later split).mpr new (same ▸ List.mem_map_of_mem before)
    intro a first b second same
    by_contra apart
    obtain ⟨beforeA, afterA, splitA, newA⟩ := List.eq_append_cons_of_mem first
    obtain ⟨beforeB, afterB, splitB, newB⟩ := List.eq_append_cons_of_mem second
    rcases List.append_eq_append_iff.mp (splitB.symm.trans splitA) with ⟨between, longer, rest⟩ | ⟨between, longer, rest⟩
    · cases between with
      | nil => exact apart (List.cons.inj rest).1.symm
      | cons c between =>
        have before : b ∈ beforeA := by simp [longer, (List.cons.inj rest).1]
        exact ordered beforeA a afterA b splitA newA before same.symm
    · cases between with
      | nil => exact apart (List.cons.inj rest).1
      | cons c between =>
        have before : a ∈ beforeB := by simp [longer, (List.cons.inj rest).1]
        exact ordered beforeB b afterB a splitB newB before same
  · intro injective earlier name later split
    have here : name ∈ names := by simp [split]
    constructor
    · intro new before
      exact new (List.mem_map_of_mem before)
    · intro new held
      obtain ⟨other, before, same⟩ := List.mem_map.mp held
      have listed : other ∈ names := by simp [split, before]
      exact new (injective listed here same ▸ before)

end Posts

section Front

variable {α : Type} {mine taken : μ → Bool} {content : μ → α} {log : List α}

/-- The messages of one receiver are taken from the front of them, and the log holds what was taken. -/
structure Front (mine taken : μ → Bool) (content : μ → α) (mail : List μ) (log : List α) : Prop where
  ahead : (mail.filter mine).Pairwise fun a b => taken b = true → taken a = true
  taken : log = ((mail.filter mine).filter taken).map content

structure First (mine taken : μ → Bool) (mail : List μ) (place : Nat) (m : μ) : Prop where
  here : mail[place]? = some m
  own : mine m = true
  waiting : taken m = false
  ahead : ∀ p other, p < place → mail[p]? = some other → mine other = true → taken other = true

theorem Front.empty (mine taken : μ → Bool) (content : μ → α) : Front mine taken content [] [] :=
  ⟨by simp, by simp⟩

theorem filter_front {p : α → Bool} {l : List α} (ahead : l.Pairwise fun a b => p b = true → p a = true) :
    l.filter p <+: l := by
  induction l with
  | nil => simp
  | cons a l ih =>
    obtain ⟨here, rest⟩ := List.pairwise_cons.mp ahead
    by_cases first : p a = true
    · rw [List.filter_cons_of_pos first]
      exact (List.prefix_cons_inj a).mpr (ih rest)
    · have none : l.filter p = [] := by
        rw [List.filter_eq_nil_iff]
        exact fun b member found => first (here b member found)
      rw [List.filter_cons_of_neg first, none]
      exact List.nil_prefix

/-- What was taken is the beginning of all that came. -/
theorem Front.begins (front : Front mine taken content mail log) : log <+: (mail.filter mine).map content := by
  rw [front.taken]
  exact (filter_front front.ahead).map content

theorem Front.append {fresh : List μ} (front : Front mine taken content mail log)
    (waiting : ∀ m ∈ fresh, taken m = false) : Front mine taken content (mail ++ fresh) log where
  ahead := by
    rw [List.filter_append, List.pairwise_append]
    refine ⟨front.ahead, ?_, ?_⟩
    · refine List.Pairwise.imp_of_mem ?_ (List.pairwise_of_forall (l := fresh.filter mine) fun _ _ => trivial)
      intro a b _ member _ done
      rw [waiting b (List.mem_filter.mp member).1] at done
      cases done
    · intro a _ b member done
      rw [waiting b (List.mem_filter.mp member).1] at done
      cases done
  taken := by
    have none : (fresh.filter mine).filter taken = [] := by
      rw [List.filter_eq_nil_iff]
      intro m member
      simp [waiting m (List.mem_filter.mp member).1]
    rw [List.filter_append, List.filter_append, none, List.append_nil, front.taken]

theorem filter_retain {keep : μ → Bool} (spared : ∀ m, mine m = true → keep m = true) (mail : List μ) :
    (mail.filter keep).filter mine = mail.filter mine := by
  rw [List.filter_filter]
  apply List.filter_congr
  intro m _
  by_cases own : mine m = true
  · simp [own, spared m own]
  · simp [own]

/-- Messages of others may go. -/
theorem Front.retain {keep : μ → Bool} (front : Front mine taken content mail log)
    (spared : ∀ m, mine m = true → keep m = true) : Front mine taken content (mail.filter keep) log := by
  have same := filter_retain spared mail
  exact ⟨same ▸ front.ahead, same ▸ front.taken⟩

/-- Taking the first that waits puts it at the end of the log. -/
theorem Front.take {mark : μ → μ} {place : Nat} {m : μ} (front : Front mine taken content mail log)
    (first : First mine taken mail place m) (own : ∀ m, mine (mark m) = mine m) (marks : ∀ m, taken (mark m) = true)
    (same : ∀ m, content (mark m) = content m) :
    Front mine taken content (mail.modify place mark) (log ++ [content m]) := by
  obtain ⟨inside, equal⟩ := List.getElem?_eq_some_iff.mp first.here
  obtain ⟨before, m', after, rfl, rfl, moved⟩ := List.exists_of_modify mark inside
  obtain rfl : m' = m := by simpa using equal
  have read : ∀ a ∈ before.filter mine, taken a = true := by
    intro a member
    obtain ⟨listed, own⟩ := List.mem_filter.mp member
    obtain ⟨p, bound, rfl⟩ := List.mem_iff_getElem.mp listed
    exact first.ahead p _ bound (by rw [List.getElem?_append_left bound, List.getElem?_eq_getElem bound]) own
  have ahead := front.ahead
  have logged := front.taken
  rw [List.filter_append, List.filter_cons_of_pos first.own] at ahead logged
  obtain ⟨-, rest, -⟩ := List.pairwise_append.mp ahead
  obtain ⟨behind, -⟩ := List.pairwise_cons.mp rest
  have unread : ∀ b ∈ after.filter mine, taken b = false := by
    intro b member
    by_contra done
    have early := behind b member (by simpa using done)
    rw [first.waiting] at early
    cases early
  have none : (after.filter mine).filter taken = [] := by
    rw [List.filter_eq_nil_iff]
    exact fun b member => by simp [unread b member]
  have all : (before.filter mine).filter taken = before.filter mine := List.filter_eq_self.mpr read
  rw [moved]
  constructor
  · rw [List.filter_append, List.filter_cons_of_pos (by rw [own]; exact first.own), List.pairwise_append]
    refine ⟨(List.pairwise_append.mp ahead).1, ?_, fun a member _ _ _ => read a member⟩
    rw [List.pairwise_cons]
    exact ⟨fun _ _ _ => marks m', (List.pairwise_cons.mp rest).2⟩
  · rw [List.filter_append, List.filter_cons_of_pos (by rw [own]; exact first.own), List.filter_append,
      List.filter_cons_of_pos (marks m'), none, all, List.map_append]
    rw [List.filter_append, List.filter_cons_of_neg (by simp [first.waiting]), none, all, List.append_nil] at logged
    simp [logged, same]

/-- Marks that leave the receiver and the content of a message alone. -/
theorem contents_modify {mark : μ → μ} (own : ∀ m, mine (mark m) = mine m) (same : ∀ m, content (mark m) = content m)
    (mail : List μ) (place : Nat) :
    ((mail.modify place mark).filter mine).map content = (mail.filter mine).map content := by
  have pairs : ∀ l : List μ,
      (l.filter mine).map content = ((l.map fun m => (mine m, content m)).filter (·.1)).map (·.2) := by
    intro l
    rw [List.filter_map, List.map_map]
    rfl
  rw [pairs, pairs, map_modify _ mark fun m => by rw [own, same]]

/-- Taking the message of another receiver. -/
theorem Front.other {mark : μ → μ} {place : Nat} {m : μ} (front : Front mine taken content mail log)
    (here : mail[place]? = some m) (foreign : mine m = false) (own : ∀ m, mine (mark m) = mine m) :
    Front mine taken content (mail.modify place mark) log := by
  obtain ⟨inside, equal⟩ := List.getElem?_eq_some_iff.mp here
  obtain ⟨before, m', after, rfl, rfl, moved⟩ := List.exists_of_modify mark inside
  obtain rfl : m' = m := by simpa using equal
  have same : ((before ++ m' :: after).modify before.length mark).filter mine = (before ++ m' :: after).filter mine := by
    simp [moved, own, foreign]
  exact ⟨same ▸ front.ahead, same ▸ front.taken⟩

end Front

section Ages

variable {mine taken waits : μ → Bool} {stamp : μ → Int} {now later : Int}

/-- Messages come with stamps that never go back. -/
structure Aged (stamp : μ → Int) (mail : List μ) (now : Int) : Prop where
  ordered : mail.Pairwise fun a b => stamp a ≤ stamp b
  past : ∀ m ∈ mail, stamp m ≤ now

theorem Aged.empty (stamp : μ → Int) (now : Int) : Aged stamp [] now := ⟨List.Pairwise.nil, by simp⟩

theorem Aged.append {fresh : List μ} (aged : Aged stamp mail now) (forth : now ≤ later)
    (stamped : ∀ m ∈ fresh, stamp m = later) : Aged stamp (mail ++ fresh) later where
  ordered := by
    rw [List.pairwise_append]
    refine ⟨aged.ordered, ?_, ?_⟩
    · refine List.Pairwise.imp_of_mem ?_ (List.pairwise_of_forall (l := fresh) fun _ _ => trivial)
      intro a b first second _
      rw [stamped a first, stamped b second]
    · intro a first b second
      rw [stamped b second]
      exact (aged.past a first).trans forth
  past := by
    intro m member
    rcases List.mem_append.mp member with old | new
    · exact (aged.past m old).trans forth
    · exact (stamped m new).le

theorem Aged.modify {mark : μ → μ} (aged : Aged stamp mail now) (forth : now ≤ later)
    (same : ∀ m, stamp (mark m) = stamp m) (place : Nat) : Aged stamp (mail.modify place mark) later where
  ordered := by
    have stamps := map_modify stamp mark same mail place
    have ordered : (mail.map stamp).Pairwise (· ≤ ·) := List.pairwise_map.mpr aged.ordered
    rw [← stamps] at ordered
    exact List.pairwise_map.mp ordered
  past := by
    intro m member
    have stamped : stamp m ∈ (mail.modify place mark).map stamp := List.mem_map_of_mem member
    rw [map_modify stamp mark same] at stamped
    obtain ⟨m', member', equal⟩ := List.mem_map.mp stamped
    exact equal ▸ (aged.past m' member').trans forth

theorem Aged.retain (aged : Aged stamp mail now) (forth : now ≤ later) (keep : μ → Bool) :
    Aged stamp (mail.filter keep) later where
  ordered := aged.ordered.sublist List.filter_sublist
  past := fun m member => (aged.past m (List.mem_filter.mp member).1).trans forth

def waiting (waits : μ → Bool) (mail : List μ) : List (μ × Nat) := mail.zipIdx.filter fun n => waits n.1

theorem mem_waiting {n : μ × Nat} : n ∈ waiting waits mail ↔ mail[n.2]? = some n.1 ∧ waits n.1 = true := by
  rw [waiting, List.mem_filter, List.mem_zipIdx_iff_getElem?]

theorem waiting_places (waits : μ → Bool) (mail : List μ) : (waiting waits mail).Pairwise fun a b => a.2 < b.2 := by
  have places : (mail.zipIdx.map (·.2)).Pairwise (· < ·) := by
    rw [List.zipIdx_map_snd]
    exact List.pairwise_lt_range'
  exact (List.pairwise_map.mp places).sublist List.filter_sublist

/-- Of two that wait the one that stands before is not younger. -/
theorem Aged.waiting_le (aged : Aged stamp mail now) {a b : μ × Nat} (first : a ∈ waiting waits mail)
    (second : b ∈ waiting waits mail) (before : a.2 < b.2) : stamp a.1 ≤ stamp b.1 := by
  obtain ⟨insideA, hereA⟩ := List.getElem?_eq_some_iff.mp (mem_waiting.mp first).1
  obtain ⟨insideB, hereB⟩ := List.getElem?_eq_some_iff.mp (mem_waiting.mp second).1
  rw [← hereA, ← hereB]
  exact List.pairwise_iff_getElem.mp aged.ordered a.2 b.2 insideA insideB before

/-- One that waits with none before it is the first. -/
theorem first_of_waiting (waits : μ → Bool) {m : μ} {place : Nat}
    (splits : ∀ m, waits m = true ↔ mine m = true ∧ taken m = false)
    (member : (m, place) ∈ waiting waits mail) (none : ∀ n ∈ waiting waits mail, place ≤ n.2) :
    First mine taken mail place m where
  here := (mem_waiting.mp member).1
  own := ((splits m).mp (mem_waiting.mp member).2).1
  waiting := ((splits m).mp (mem_waiting.mp member).2).2
  ahead := by
    intro p other before here own
    by_contra unread
    have waits' := (splits other).mpr ⟨own, by simpa using unread⟩
    have later : place ≤ p := none (other, p) (mem_waiting.mpr ⟨here, waits'⟩)
    omega

end Ages

section InOrder

variable {α : Type} {mine taken : μ → Bool} {content : μ → α} {stamp : μ → Int} {mark : μ → μ}
  {sent received : List α} {now later : Int} {place : Nat} {m : μ}

/-- One receiver's messages in a mailbox, those that came in, and those that were handed out of it. -/
structure InOrder (mine taken : μ → Bool) (content : μ → α) (stamp : μ → Int) (mail : List μ) (sent received : List α)
    (now : Int) : Prop where
  front : Front mine taken content mail received
  aged : Aged stamp mail now
  sent : sent = (mail.filter mine).map content

/-- What a change of the mailbox brings to the receiver. -/
def came (mine : μ → Bool) (content : μ → α) (before after : List μ) : List α :=
  ((after.drop before.length).filter mine).map content

theorem came_shorter {before after : List μ} (shorter : after.length ≤ before.length) :
    came mine content before after = [] := by
  rw [came, List.drop_eq_nil_of_le shorter]
  rfl

/-- A mark on a message says that it was taken and nothing else. -/
structure Marks (mark : μ → μ) (mine taken : μ → Bool) (content : μ → α) (stamp : μ → Int) : Prop where
  own : ∀ m, mine (mark m) = mine m
  taken : ∀ m, taken (mark m) = true
  content : ∀ m, content (mark m) = content m
  stamp : ∀ m, stamp (mark m) = stamp m

theorem InOrder.empty (mine taken : μ → Bool) (content : μ → α) (stamp : μ → Int) (now : Int) :
    InOrder mine taken content stamp [] [] [] now := ⟨.empty _ _ _, .empty _ _, rfl⟩

variable (order : InOrder mine taken content stamp mail sent received now)
include order

theorem InOrder.begins : received <+: sent := by
  rw [order.sent]
  exact order.front.begins

theorem InOrder.append {fresh : List μ} (forth : now ≤ later)
    (new : ∀ m ∈ fresh, taken m = false ∧ stamp m = later) :
    InOrder mine taken content stamp (mail ++ fresh) (sent ++ came mine content mail (mail ++ fresh)) received later where
  front := order.front.append fun m member => (new m member).1
  aged := order.aged.append forth fun m member => (new m member).2
  sent := by simp [came, order.sent]

theorem InOrder.same (forth : now ≤ later) :
    InOrder mine taken content stamp mail (sent ++ came mine content mail mail) received later := by
  have none := order.append forth (List.forall_mem_nil _)
  rwa [List.append_nil] at none

theorem InOrder.retain {keep : μ → Bool} (forth : now ≤ later) (spared : ∀ m, mine m = true → keep m = true) :
    InOrder mine taken content stamp (mail.filter keep) (sent ++ came mine content mail (mail.filter keep)) received
      later where
  front := order.front.retain spared
  aged := order.aged.retain forth keep
  sent := by
    rw [came_shorter (List.length_filter_le keep mail), List.append_nil, order.sent, filter_retain spared]

/-- Taking leaves what was sent as it is. -/
theorem InOrder.sent_modify (marks : Marks mark mine taken content stamp) (place : Nat) :
    sent ++ came mine content mail (mail.modify place mark) =
      ((mail.modify place mark).filter mine).map content := by
  rw [came_shorter (by simp), List.append_nil, order.sent, contents_modify marks.own marks.content]

theorem InOrder.take (forth : now ≤ later) (marks : Marks mark mine taken content stamp)
    (first : First mine taken mail place m) :
    InOrder mine taken content stamp (mail.modify place mark) (sent ++ came mine content mail (mail.modify place mark))
      (received ++ [content m]) later where
  front := order.front.take first marks.own marks.taken marks.content
  aged := order.aged.modify forth marks.stamp place
  sent := order.sent_modify marks place

theorem InOrder.other (forth : now ≤ later) (marks : Marks mark mine taken content stamp) (here : mail[place]? = some m)
    (foreign : mine m = false) :
    InOrder mine taken content stamp (mail.modify place mark) (sent ++ came mine content mail (mail.modify place mark))
      received later where
  front := order.front.other here foreign marks.own
  aged := order.aged.modify forth marks.stamp place
  sent := order.sent_modify marks place

end InOrder

end Durare.Mailbox
