import Orchestrator.Base.Fallible

/-!
# Transactions of a session

A session reads and writes the state that its open transaction sees and publishes it with
a commit. Any statement can fail instead of running. A body of statements without a
commit computes an outcome on the transaction's state; a body that ends with its only
commit is all or nothing.
-/

namespace Orchestrator.Base

universe u

variable {σ ε α β γ : Type u}

/-- A session: the committed state, the state that its transaction sees, and what its next
statements raise instead of running. -/
structure Session (σ ε : Type u) where
  committed : σ
  working : σ
  faults : List (Option ε)

/-- Programs over a session. -/
abbrev Txn (σ ε : Type u) := EStateM ε (Session σ ε)

namespace Txn

/-- The next statement fails, or it can run. -/
def reach : Txn σ ε PUnit := fun x =>
  match x.faults with
  | some e :: faults => .error e { x with faults := faults }
  | none :: faults => .ok ⟨⟩ { x with faults := faults }
  | [] => .ok ⟨⟩ x

/-- A computation that is no statement. -/
def compute (o : Except ε α) : Txn σ ε α := fun x =>
  match o with
  | .ok a => .ok a x
  | .error e => .error e x

/-- The effect of a statement on the transaction's state. -/
def affect (f : σ → Except ε (σ × α)) : Txn σ ε α := fun x =>
  match f x.working with
  | .ok (s, a) => .ok a { x with working := s }
  | .error e => .error e x

/-- A statement that can raise by itself. -/
def execute (f : σ → Except ε (σ × α)) : Txn σ ε α := reach >>= fun _ => affect f

/-- A statement that reads. -/
def query (f : σ → α) : Txn σ ε α := execute fun s => .ok (s, f s)

/-- A statement that writes. -/
def write (f : σ → σ) : Txn σ ε PUnit := execute fun s => .ok (f s, ⟨⟩)

/-- Publish the transaction's state. -/
def commit : Txn σ ε PUnit :=
  reach >>= fun _ x => .ok ⟨⟩ { x with committed := x.working }

/-- Forget the transaction's writes. -/
def rollback : Txn σ ε PUnit :=
  reach >>= fun _ x => .ok ⟨⟩ { x with working := x.committed }

/-- Run a program and return what it returns or raises. -/
def attempt (m : Txn σ ε α) : Txn σ ε (Except ε α) := fun x =>
  match m x with
  | .ok a y => .ok (.ok a) y
  | .error e y => .ok (.error e) y

end Txn

/-- Between two statements a program keeps what is committed and brings no faults. -/
structure Session.Keeps (x y : Session σ ε) : Prop where
  committed : y.committed = x.committed
  faultless : x.faults = [] → y.faults = []

/-- A program computes an outcome on a state: it returns what the outcome says, and it
raises what the outcome says unless a statement failed. -/
structure Computes (m : Txn σ ε α) (s : σ) (o : Except ε (σ × α)) : Prop where
  returns : ∀ x a y, x.working = s → m x = .ok a y → o = .ok (y.working, a) ∧ x.Keeps y
  raises : ∀ x e y, x.working = s → m x = .error e y →
    (x.faults = [] → o = .error e) ∧ x.Keeps y

/-- A program is all or nothing, from a committed state and the state that its transaction
sees: it commits what the outcome says when it returns, and nothing when it raises. -/
structure Atomic (m : Txn σ ε α) (c s : σ) (o : Except ε (σ × α)) : Prop where
  returns : ∀ x a y, x.committed = c → x.working = s → m x = .ok a y →
    o = .ok (y.committed, a)
  raises : ∀ x e y, x.committed = c → x.working = s → m x = .error e y →
    y.committed = c ∧ (x.faults = [] → o = .error e)

/-! ### Sequencing -/

section

variable {m : Txn σ ε α} {k : α → Txn σ ε β} {x y : Session σ ε}

theorem Session.Keeps.refl (x : Session σ ε) : x.Keeps x := ⟨rfl, id⟩

theorem Session.Keeps.trans {z : Session σ ε} (h : x.Keeps y) (h' : y.Keeps z) : x.Keeps z :=
  ⟨h'.committed.trans h.committed, fun hx => h'.faultless (h.faultless hx)⟩

/-- A sequence returns when both parts return. -/
theorem Txn.bind_ok {b : β} (h : (m >>= k) x = .ok b y) :
    ∃ a z, m x = .ok a z ∧ k a z = .ok b y := by
  simp only [bind, EStateM.bind] at h
  split at h
  · next a z hm => exact ⟨a, z, hm, h⟩
  · cases h

/-- A sequence raises in one of its parts. -/
theorem Txn.bind_error {e : ε} (h : (m >>= k) x = .error e y) :
    m x = .error e y ∨ ∃ a z, m x = .ok a z ∧ k a z = .error e y := by
  simp only [bind, EStateM.bind] at h
  split at h
  · next a z hm => exact Or.inr ⟨a, z, hm, h⟩
  · next e' z hm =>
    cases h
    exact Or.inl hm

/-- Reaching a statement touches no state. -/
theorem Txn.reach_ok {a : PUnit} (h : Txn.reach x = .ok a y) :
    y.working = x.working ∧ x.Keeps y := by
  unfold Txn.reach at h
  split at h
  · cases h
  · next faults hf =>
    cases h
    exact ⟨rfl, rfl, fun h => by simp [h] at hf⟩
  · cases h
    exact ⟨rfl, .refl x⟩

/-- Only a fault stops a program from reaching its next statement. -/
theorem Txn.reach_error {e : ε} (h : Txn.reach x = .error e y) : x.faults ≠ [] ∧ x.Keeps y := by
  unfold Txn.reach at h
  split at h
  · next e' faults hf =>
    cases h
    exact ⟨by simp [hf], rfl, fun h => by simp [h] at hf⟩
  · cases h
  · cases h

end

namespace Computes

variable {m : Txn σ ε α} {k : α → Txn σ ε β} {s : σ} {o : Except ε (σ × α)}

/-- The same outcome in another form. -/
theorem congr {q : Except ε (σ × α)} (h : Computes m s o) (ho : o = q) : Computes m s q := ho ▸ h

/-- The empty program. -/
theorem pure (a : α) (s : σ) : Computes (pure a : Txn σ ε α) s (.ok (s, a)) where
  returns := by
    rintro x _ _ rfl ⟨⟩
    exact ⟨rfl, .refl x⟩
  raises := by rintro _ _ _ _ ⟨⟩

/-- A computation outside the database. -/
theorem compute (o : Except ε α) (s : σ) :
    Computes (Txn.compute o : Txn σ ε α) s (o.map fun a => (s, a)) := by
  cases o with
  | ok a => exact Computes.pure a s
  | error e =>
    refine ⟨by rintro _ _ _ _ ⟨⟩, ?_⟩
    rintro x _ _ rfl ⟨⟩
    exact ⟨fun _ => rfl, .refl x⟩

/-- The effect of a statement. -/
theorem affect (f : σ → Except ε (σ × α)) (s : σ) : Computes (Txn.affect f) s (f s) where
  returns := by
    rintro x a y rfl h
    unfold Txn.affect at h
    split at h
    · next s' b hf =>
      cases h
      exact ⟨hf, rfl, id⟩
    · cases h
  raises := by
    rintro x e y rfl h
    unfold Txn.affect at h
    split at h
    · cases h
    · next e' hf =>
      cases h
      exact ⟨fun _ => hf, .refl x⟩

/-- A sequence computes the sequence of the outcomes. -/
theorem bind {g : σ → α → Except ε (σ × β)} (hm : Computes m s o)
    (hk : ∀ s' a, o = .ok (s', a) → Computes (k a) s' (g s' a)) :
    Computes (m >>= k) s (o >>= fun y => g y.1 y.2) where
  returns := by
    intro x b y hx h
    obtain ⟨a, z, hma, hkb⟩ := Txn.bind_ok h
    obtain ⟨ho, hxz⟩ := hm.returns x a z hx hma
    obtain ⟨hg, hzy⟩ := (hk _ a ho).returns z b y rfl hkb
    refine ⟨?_, hxz.trans hzy⟩
    rw [ho]
    exact hg
  raises := by
    intro x e y hx h
    rcases Txn.bind_error h with hme | ⟨a, z, hma, hke⟩
    · obtain ⟨ho, hxy⟩ := hm.raises x e y hx hme
      refine ⟨fun hf => ?_, hxy⟩
      rw [ho hf]
      rfl
    · obtain ⟨ho, hxz⟩ := hm.returns x a z hx hma
      obtain ⟨hg, hzy⟩ := (hk _ a ho).raises z e y rfl hke
      refine ⟨fun hf => ?_, hxz.trans hzy⟩
      rw [ho]
      exact hg (hxz.faultless hf)

/-- After a program that computes one state and value, what the rest computes there. -/
theorem next {s' : σ} {a : α} {q : Except ε (σ × β)} (hm : Computes m s (.ok (s', a)))
    (hk : Computes (k a) s' q) : Computes (m >>= k) s q :=
  bind (g := fun _ _ => q) hm fun _ _ h => by
    cases h
    exact hk

/-- After a program whose outcome is read off another computation, what the rest computes. -/
theorem bindMap {δ : Type u} {p : Except ε δ} {h : δ → σ × α} {g : δ → Except ε (σ × β)}
    (hm : Computes m s (p.map h)) (hk : ∀ d, Computes (k (h d).2) (h d).1 (g d)) :
    Computes (m >>= k) s (p >>= g) := by
  cases p with
  | error e =>
    exact (bind (g := fun _ _ => .error e) hm fun _ _ h => nomatch h).congr rfl
  | ok d => exact next hm (hk d)

/-- A statement that can fail computes its effect. -/
theorem execute (f : σ → Except ε (σ × α)) (s : σ) : Computes (Txn.execute f) s (f s) where
  returns := by
    intro x a y hx h
    obtain ⟨_, z, hr, ha⟩ := Txn.bind_ok h
    obtain ⟨hw, hxz⟩ := Txn.reach_ok hr
    obtain ⟨ho, hzy⟩ := (affect f s).returns z a y (hw.trans hx) ha
    exact ⟨ho, hxz.trans hzy⟩
  raises := by
    intro x e y hx h
    rcases Txn.bind_error h with hr | ⟨_, z, hr, ha⟩
    · obtain ⟨hne, hxy⟩ := Txn.reach_error hr
      exact ⟨fun hf => absurd hf hne, hxy⟩
    · obtain ⟨hw, hxz⟩ := Txn.reach_ok hr
      obtain ⟨ho, hzy⟩ := (affect f s).raises z e y (hw.trans hx) ha
      exact ⟨fun hf => ho (hxz.faultless hf), hxz.trans hzy⟩

/-- A read computes its answer. -/
theorem query (f : σ → α) (s : σ) : Computes (Txn.query f : Txn σ ε α) s (.ok (s, f s)) :=
  execute _ s

/-- A write computes the written state. -/
theorem write (f : σ → σ) (s : σ) : Computes (Txn.write f : Txn σ ε PUnit) s (.ok (f s, ⟨⟩)) :=
  execute _ s

/-- A loop over an accumulator computes the loop over state and accumulator. -/
theorem foldlM {k : β → γ → Txn σ ε β} {g : σ → β → γ → Except ε (σ × β)}
    (hk : ∀ s b c, Computes (k b c) s (g s b c)) (cs : List γ) (b : β) (s : σ) :
    Computes (cs.foldlM k b) s (cs.foldlM (fun y => g y.1 y.2) (s, b)) := by
  induction cs generalizing b s with
  | nil => exact Computes.pure b s
  | cons c cs ih => exact bind (hk s b c) fun s' b' _ => ih b' s'

end Computes

namespace Atomic

variable {m : Txn σ ε α} {k : α → Txn σ ε β} {c s : σ} {o : Except ε (σ × α)}

/-- The same outcome in another form. -/
theorem congr {q : Except ε (σ × α)} (h : Atomic m c s o) (ho : o = q) : Atomic m c s q :=
  ho ▸ h

/-- A program that only reads commits nothing. -/
theorem read {p : Except ε α} (h : Computes m c (p.map fun a => (c, a))) :
    Atomic m c c (p.map fun a => (c, a)) where
  returns := by
    intro x b y hc hx hm
    obtain ⟨ho, hxy⟩ := h.returns x b y hx hm
    rw [hxy.committed, hc]
    cases p with
    | error e => cases ho
    | ok a =>
      cases ho
      rfl
  raises := by
    intro x e y hc hx hm
    obtain ⟨ho, hxy⟩ := h.raises x e y hx hm
    exact ⟨hxy.committed.trans hc, ho⟩

/-- A program that raises commits nothing. -/
theorem raise (e : ε) (c s : σ) : Atomic (Txn.compute (.error e) : Txn σ ε α) c s (.error e) where
  returns := by rintro _ _ _ _ _ ⟨⟩
  raises := by
    rintro x _ _ hc _ ⟨⟩
    exact ⟨hc, fun _ => rfl⟩

/-- A commit that is reached publishes the transaction's state. -/
theorem commit (a : α) (c s : σ) :
    Atomic (Txn.commit >>= fun _ => pure a : Txn σ ε α) c s (.ok (s, a)) where
  returns := by
    intro x b y _ hx h
    obtain ⟨_, z, hcommit, hpure⟩ := Txn.bind_ok h
    obtain ⟨_, w, hr, hpublish⟩ := Txn.bind_ok hcommit
    obtain ⟨hw, -⟩ := Txn.reach_ok hr
    cases hpublish
    cases hpure
    rw [← hx, ← hw]
  raises := by
    intro x e y hc _ h
    rcases Txn.bind_error h with hcommit | ⟨_, z, -, hpure⟩
    · rcases Txn.bind_error hcommit with hr | ⟨_, w, -, hpublish⟩
      · obtain ⟨hne, hxy⟩ := Txn.reach_error hr
        exact ⟨hxy.committed.trans hc, fun hf => absurd hf hne⟩
      · cases hpublish
    · cases hpure

/-- Statements without a commit come before a program that is all or nothing. -/
theorem bind {g : σ → α → Except ε (σ × β)} (hm : Computes m s o)
    (hk : ∀ s' a, o = .ok (s', a) → Atomic (k a) c s' (g s' a)) :
    Atomic (m >>= k) c s (o >>= fun y => g y.1 y.2) where
  returns := by
    intro x b y hc hx h
    obtain ⟨a, z, hma, hkb⟩ := Txn.bind_ok h
    obtain ⟨ho, hxz⟩ := hm.returns x a z hx hma
    rw [ho]
    exact (hk _ a ho).returns z b y (hxz.committed.trans hc) rfl hkb
  raises := by
    intro x e y hc hx h
    rcases Txn.bind_error h with hme | ⟨a, z, hma, hke⟩
    · obtain ⟨ho, hxy⟩ := hm.raises x e y hx hme
      refine ⟨hxy.committed.trans hc, fun hf => ?_⟩
      rw [ho hf]
      rfl
    · obtain ⟨ho, hxz⟩ := hm.returns x a z hx hma
      obtain ⟨hy, hg⟩ := (hk _ a ho).raises z e y (hxz.committed.trans hc) rfl hke
      refine ⟨hy, fun hf => ?_⟩
      rw [ho]
      exact hg (hxz.faultless hf)

/-- After statements that compute one state and value, what the rest commits. -/
theorem next {s' : σ} {a : α} {q : Except ε (σ × β)} (hm : Computes m s (.ok (s', a)))
    (hk : Atomic (k a) c s' q) : Atomic (m >>= k) c s q :=
  bind (g := fun _ _ => q) hm fun _ _ h => by
    cases h
    exact hk

/-- A rollback returns to the committed state. -/
theorem rollback {k : Txn σ ε β} {q : Except ε (σ × β)} (hk : Atomic k c c q) (s : σ) :
    Atomic (Txn.rollback >>= fun _ => k) c s q where
  returns := by
    intro x b y hc _ h
    obtain ⟨_, z, hroll, hkb⟩ := Txn.bind_ok h
    obtain ⟨_, w, hr, hforget⟩ := Txn.bind_ok hroll
    obtain ⟨-, hxw⟩ := Txn.reach_ok hr
    cases hforget
    have hw : w.committed = c := hxw.committed.trans hc
    exact hk.returns { w with working := w.committed } b y hw hw hkb
  raises := by
    intro x e y hc _ h
    rcases Txn.bind_error h with hroll | ⟨_, z, hroll, hke⟩
    · rcases Txn.bind_error hroll with hr | ⟨_, w, -, hforget⟩
      · obtain ⟨hne, hxy⟩ := Txn.reach_error hr
        exact ⟨hxy.committed.trans hc, fun hf => absurd hf hne⟩
      · cases hforget
    · obtain ⟨_, w, hr, hforget⟩ := Txn.bind_ok hroll
      obtain ⟨-, hxw⟩ := Txn.reach_ok hr
      cases hforget
      have hw : w.committed = c := hxw.committed.trans hc
      obtain ⟨hy, hq⟩ := hk.raises { w with working := w.committed } e y hw hw hke
      exact ⟨hy, fun hf => hq (hxw.faultless hf)⟩

/-- A handler that raises again what it handles. -/
theorem reraised {k : Except ε α → Txn σ ε β} {g : σ → α → Except ε (σ × β)}
    (hm : Computes m s o)
    (hok : ∀ s' a, o = .ok (s', a) → Atomic (k (.ok a)) c s' (g s' a))
    (herror : ∀ e s', Atomic (k (.error e)) c s' (.error e)) :
    Atomic (m.attempt >>= k) c s (o >>= fun y => g y.1 y.2) where
  returns := by
    intro x b y hc hx h
    obtain ⟨a, z, hma, hkb⟩ := Txn.bind_ok h
    unfold Txn.attempt at hma
    split at hma
    · next a' z' hm' =>
      cases hma
      obtain ⟨ho, hxz⟩ := hm.returns x a' z hx hm'
      rw [ho]
      exact (hok _ a' ho).returns z b y (hxz.committed.trans hc) rfl hkb
    · next e z' hm' =>
      cases hma
      obtain ⟨-, hxz⟩ := hm.raises x e z hx hm'
      cases (herror e z.working).returns z b y (hxz.committed.trans hc) rfl hkb
  raises := by
    intro x e y hc hx h
    rcases Txn.bind_error h with hme | ⟨a, z, hma, hke⟩
    · unfold Txn.attempt at hme
      split at hme <;> cases hme
    · unfold Txn.attempt at hma
      split at hma
      · next a' z' hm' =>
        cases hma
        obtain ⟨ho, hxz⟩ := hm.returns x a' z hx hm'
        obtain ⟨hy, hg⟩ := (hok _ a' ho).raises z e y (hxz.committed.trans hc) rfl hke
        refine ⟨hy, fun hf => ?_⟩
        rw [ho]
        exact hg (hxz.faultless hf)
      · next e' z' hm' =>
        cases hma
        obtain ⟨ho, hxz⟩ := hm.raises x e' z hx hm'
        obtain ⟨hy, hq⟩ :=
          (herror e' z.working).raises z e y (hxz.committed.trans hc) rfl hke
        refine ⟨hy, fun hf => ?_⟩
        rw [ho hf]
        exact hq (hxz.faultless hf)

end Atomic

end Orchestrator.Base
