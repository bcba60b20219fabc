import Mathlib.Tactic

/-!
# Programs of atomic accesses

Threads that share one word and reach it by atomic accesses only. An access reads the word and
writes a new one in a single step; what a thread does next depends on the word that it read.
A thread whose assertion fails does not go on.

Accesses may be marked with an operation on an abstract value that the word stands for. The
threads refine the abstract value if each of them, relying on what the others may do to the
word, only makes changes that its marks describe and that the others can rely on. What a thread
is marked with in a run is said by its own program, whatever the words are that it reads.
-/
namespace AtomicPrograms

variable {T W Ev A G α β : Type}

inductive Program (W Ev α : Type)
  | done (a : α)
  | fail
  | access (f : W → W) (event : Option Ev) (next : W → Program W Ev α)
  /-- An access that is repeated until it finds the word free. -/
  | await (free : W → Bool) (f : W → W) (event : Ev) (next : Program W Ev α)

namespace Program

def bind : Program W Ev α → (α → Program W Ev β) → Program W Ev β
  | done a, k => k a
  | fail, _ => fail
  | access f event next, k => access f event fun w => (next w).bind k
  | await free f event next, k => await free f event (next.bind k)

instance : Monad (Program W Ev) where
  pure := done
  bind := bind

def load : Program W Ev W := access id none done

def assert (b : Bool) : Program W Ev Unit := if b then done () else fail

/-- Whatever the words are that it reads, a program that comes to its end is marked with these
operations in this order. -/
def Marked : Program W Ev α → List Ev → Prop
  | done _, ops => ops = []
  | fail, _ => True
  | access _ none next, ops => ∀ w, (next w).Marked ops
  | access _ (some event) next, ops => ∃ rest, ops = event :: rest ∧ ∀ w, (next w).Marked rest
  | await _ _ event next, ops => ∃ rest, ops = event :: rest ∧ next.Marked rest

section
variable {ops ops' : List Ev}

theorem Marked.bind {p : Program W Ev β} {k : β → Program W Ev α} (h : p.Marked ops)
    (hk : ∀ b, (k b).Marked ops') : (p >>= k).Marked (ops ++ ops') := by
  change (p.bind k).Marked (ops ++ ops')
  induction p generalizing ops with
  | done b =>
    have hnil : ops = [] := h
    rw [hnil]
    exact hk b
  | fail => exact trivial
  | access f event next ih =>
    cases event with
    | none => exact fun w => ih w (h w)
    | some event =>
      obtain ⟨rest, rfl, hrest⟩ := h
      exact ⟨rest ++ ops', rfl, fun w => ih w (hrest w)⟩
  | await free f event next ih =>
    obtain ⟨rest, rfl, hrest⟩ := h
    exact ⟨rest ++ ops', rfl, ih hrest⟩

/-- A part that is not marked, such as a read or an assertion, before the rest. -/
theorem Marked.after {p : Program W Ev β} {k : β → Program W Ev α} (h : p.Marked [])
    (hk : ∀ b, (k b).Marked ops) : (p >>= k).Marked ops := h.bind hk

theorem load_marked : (load : Program W Ev W).Marked [] := fun _ => rfl

theorem assert_marked (b : Bool) : (assert b : Program W Ev Unit).Marked [] := by
  cases b with
  | true => exact rfl
  | false => exact trivial

/-- One marked access. -/
theorem access_marked (f : W → W) (event : Ev) :
    (access f (some event) done : Program W Ev W).Marked [event] := ⟨[], rfl, fun _ => rfl⟩

end

end Program

/-- The shared word, and what each thread has left to do. -/
structure Machine (T W Ev : Type) where
  word : W
  left : T → Program W Ev Unit

section
variable [DecidableEq T]

/-- One access of a thread. -/
inductive Step : Machine T W Ev → T → Option Ev → Machine T W Ev → Prop
  | access {m : Machine T W Ev} {t : T} {f : W → W} {event : Option Ev}
      {next : W → Program W Ev Unit} (h : m.left t = .access f event next) :
      Step m t event ⟨f m.word, Function.update m.left t (next m.word)⟩
  | acquires {m : Machine T W Ev} {t : T} {free : W → Bool} {f : W → W} {event : Ev}
      {next : Program W Ev Unit} (h : m.left t = .await free f event next)
      (hfree : free m.word = true) :
      Step m t (some event) ⟨f m.word, Function.update m.left t next⟩
  | spins {m : Machine T W Ev} {t : T} {free : W → Bool} {f : W → W} {event : Ev}
      {next : Program W Ev Unit} (h : m.left t = .await free f event next)
      (hbusy : free m.word = false) : Step m t none ⟨f m.word, m.left⟩

/-- The accesses of a run in their order: the operations that they are marked with, and the thread
of each. -/
inductive Run : Machine T W Ev → List (T × Ev) → Machine T W Ev → Prop
  | nil {m : Machine T W Ev} : Run m [] m
  | snoc {m m' m'' : Machine T W Ev} {events : List (T × Ev)} {t : T} {event : Option Ev}
      (before : Run m events m') (step : Step m' t event m'') :
      Run m (events ++ event.toList.map (Prod.mk t)) m''

/-- The operations of one thread in a run. -/
def ofThread (t : T) (events : List (T × Ev)) : List Ev :=
  events.filterMap fun e => if e.1 = t then some e.2 else none

theorem ofThread_append (t : T) (events events' : List (T × Ev)) :
    ofThread t (events ++ events') = ofThread t events ++ ofThread t events' :=
  List.filterMap_append

theorem ofThread_self (t : T) (event : Option Ev) :
    ofThread t (event.toList.map (Prod.mk t)) = event.toList := by
  cases event with
  | none => rfl
  | some event => simp [ofThread]

theorem ofThread_of_ne {t t' : T} (h : t' ≠ t) (event : Option Ev) :
    ofThread t (event.toList.map (Prod.mk t')) = [] := by
  cases event with
  | none => rfl
  | some event => simp [ofThread, h]

/-- A step of a thread is marked with the first of the operations of its program. -/
theorem Step.marked {m m' : Machine T W Ev} {t : T} {event : Option Ev} (h : Step m t event m')
    {ops : List Ev} (hops : (m.left t).Marked ops) :
    ∃ rest, ops = event.toList ++ rest ∧ (m'.left t).Marked rest := by
  cases h with
  | @access _ event next h =>
    rw [h] at hops
    dsimp only
    rw [Function.update_self]
    cases event with
    | none => exact ⟨ops, rfl, hops m.word⟩
    | some event =>
      obtain ⟨rest, rfl, hrest⟩ := hops
      exact ⟨rest, rfl, hrest m.word⟩
  | acquires h hfree =>
    rw [h] at hops
    obtain ⟨rest, rfl, hrest⟩ := hops
    refine ⟨rest, rfl, ?_⟩
    dsimp only
    rwa [Function.update_self]
  | spins h hbusy => exact ⟨ops, rfl, hops⟩

/-- A step of a thread leaves the programs of the others. -/
theorem Step.left_of_ne {m m' : Machine T W Ev} {t t' : T} {event : Option Ev}
    (h : Step m t event m') (ht : t' ≠ t) : m'.left t' = m.left t' := by
  cases h with
  | access h => exact Function.update_of_ne ht _ _
  | acquires h hfree => exact Function.update_of_ne ht _ _
  | spins h hbusy => rfl

/-- In a whole run each thread is marked with the first of the operations of its program, and with
the rest of them in what it has left to do. -/
theorem Run.marked {m m' : Machine T W Ev} {events : List (T × Ev)} (h : Run m events m')
    {t : T} {ops : List Ev} (hops : (m.left t).Marked ops) :
    ∃ rest, ops = ofThread t events ++ rest ∧ (m'.left t).Marked rest := by
  induction h with
  | nil => exact ⟨ops, rfl, hops⟩
  | @snoc m' m'' events t' event before step ih =>
    obtain ⟨rest, rfl, hrest⟩ := ih
    rw [ofThread_append]
    by_cases ht : t' = t
    · subst ht
      obtain ⟨rest', rfl, hrest'⟩ := step.marked hrest
      exact ⟨rest', by rw [ofThread_self, List.append_assoc], hrest'⟩
    · refine ⟨rest, by rw [ofThread_of_ne ht, List.append_nil], ?_⟩
      rwa [step.left_of_ne (Ne.symm ht)]

/-- No assertion of a thread has failed. -/
def Machine.Asserted (m : Machine T W Ev) : Prop := ∀ t, m.left t ≠ .fail

theorem Step.asserted {m m' : Machine T W Ev} {t' : T} {event : Option Ev}
    (h : Step m t' event m') (hok : m'.Asserted) : m.Asserted := by
  intro t ht
  refine hok t ?_
  have stays : ∀ {t' : T} {p : Program W Ev Unit}, m.left t' ≠ .fail →
      Function.update m.left t' p t = .fail := by
    intro t' p hne
    rw [Function.update_of_ne, ht]
    rintro rfl
    exact hne ht
  cases h with
  | access h => exact stays (by rw [h]; simp)
  | acquires h hfree => exact stays (by rw [h]; simp)
  | spins h hbusy => exact ht

end

/-- What the word stands for, the invariant that relates it to a ghost value, and what a thread
relies on while it does not run. -/
structure Protocol (T W Ev A G : Type) where
  view : W → A
  apply : Ev → A → Option A
  inv : W × G → Prop
  rely : T → W × G → W × G → Prop
  rely_refl : ∀ t s, rely t s s
  rely_trans : ∀ {t s s' s''}, rely t s s' → rely t s' s'' → rely t s s''

namespace Protocol

variable (P : Protocol T W Ev A G)

/-- A change of the word is the operation that it is marked with. -/
def Emits (w : W) : Option Ev → W → Prop
  | none, w' => P.view w' = P.view w
  | some event, w' => P.apply event (P.view w) = some (P.view w')

/-- A change keeps the invariant, and every other thread can rely on it. -/
def Guarantees (t : T) (s s' : W × G) : Prop := P.inv s' ∧ ∀ t' ≠ t, P.rely t' s s'

/-- A program that, started in a state, only makes changes that it may make. -/
def Safe (t : T) (Q : α → W × G → Prop) : Program W Ev α → W × G → Prop
  | .done a, s => ∀ s', P.rely t s s' → Q a s'
  | .fail, _ => True
  | .access f event next, s => ∀ s', P.rely t s s' → P.inv s' → next s'.1 ≠ .fail →
      ∃ g, P.Emits s'.1 event (f s'.1) ∧ P.Guarantees t s' (f s'.1, g) ∧
        Safe t Q (next s'.1) (f s'.1, g)
  | .await free f event next, s => ∀ s', P.rely t s s' → P.inv s' →
      if free s'.1 then ∃ g, P.Emits s'.1 (some event) (f s'.1) ∧
        P.Guarantees t s' (f s'.1, g) ∧ Safe t Q next (f s'.1, g)
      else f s'.1 = s'.1

section
variable {P} {t : T} {Q : α → W × G → Prop} {R : β → W × G → Prop} {s s' : W × G}

theorem Guarantees.refl (h : P.inv s) : P.Guarantees t s s := ⟨h, fun t' _ => P.rely_refl t' s⟩

/-- What the others do leaves a program safe. -/
theorem Safe.rely {p : Program W Ev α} (h : P.Safe t Q p s) (hs : P.rely t s s') :
    P.Safe t Q p s' := by
  cases p with
  | done a => exact fun s'' hs' => h s'' (P.rely_trans hs hs')
  | fail => exact trivial
  | access f event next => exact fun s'' hs' => h s'' (P.rely_trans hs hs')
  | await free f event next => exact fun s'' hs' => h s'' (P.rely_trans hs hs')

theorem Safe.bind {p : Program W Ev β} {k : β → Program W Ev α} (h : P.Safe t R p s)
    (hk : ∀ b s, R b s → P.Safe t Q (k b) s) : P.Safe t Q (p >>= k) s := by
  change P.Safe t Q (p.bind k) s
  induction p generalizing s with
  | done b => exact hk b s (h s (P.rely_refl t s))
  | fail => exact trivial
  | access f event next ih =>
    intro s' hs hinv hne
    have hnext : next s'.1 ≠ .fail := by
      intro heq
      change (next s'.1).bind k ≠ .fail at hne
      rw [heq] at hne
      exact hne rfl
    obtain ⟨g, hemits, hguar, hsafe⟩ := h s' hs hinv hnext
    exact ⟨g, hemits, hguar, ih _ hsafe⟩
  | await free f event next ih =>
    intro s' hs hinv
    have hstep := h s' hs hinv
    split_ifs at hstep ⊢ with hfree
    · obtain ⟨g, hemits, hguar, hsafe⟩ := hstep
      exact ⟨g, hemits, hguar, ih hsafe⟩
    · exact hstep

theorem Safe.pure {a : α} (h : ∀ s', P.rely t s s' → Q a s') : P.Safe t Q (pure a) s := h

/-- A single access. -/
theorem Safe.access {f : W → W} {event : Option Ev} {Q : W → W × G → Prop}
    (h : ∀ s', P.rely t s s' → P.inv s' → ∃ g, P.Emits s'.1 event (f s'.1) ∧
      P.Guarantees t s' (f s'.1, g) ∧ ∀ s'', P.rely t (f s'.1, g) s'' → Q s'.1 s'') :
    P.Safe t Q (.access f event .done) s := fun s' hs hinv _ => h s' hs hinv

/-- An access whose bounds are asserted once it has happened. -/
theorem Safe.access_assert {f : W → W} {event : Option Ev} {b : W → Bool}
    {Q : Unit → W × G → Prop}
    (h : ∀ s', P.rely t s s' → P.inv s' → b s'.1 = true →
      ∃ g, P.Emits s'.1 event (f s'.1) ∧
      P.Guarantees t s' (f s'.1, g) ∧ ∀ s'', P.rely t (f s'.1, g) s'' → Q () s'') :
    P.Safe t Q (.access f event .done >>= fun w => .assert (b w)) s := by
  intro s' hs hinv hne
  change Program.assert (b s'.1) ≠ .fail at hne
  cases hb : b s'.1 with
  | false =>
    rw [hb] at hne
    exact absurd rfl hne
  | true =>
    obtain ⟨g, hemits, hguar, hQ⟩ := h s' hs hinv hb
    refine ⟨g, hemits, hguar, ?_⟩
    change P.Safe t Q (.assert (b s'.1)) _
    rw [hb]
    exact hQ

/-- A word that was read, and what a thread knows of it for as long as it relies on it. -/
theorem Safe.load {Q : W → W × G → Prop}
    (h : ∀ s', P.rely t s s' → P.inv s' → ∀ s'', P.rely t s' s'' → Q s'.1 s'') :
    P.Safe t Q .load s :=
  fun s' hs hinv _ => ⟨s'.2, rfl, Guarantees.refl hinv, h s' hs hinv⟩

theorem Safe.assert {b : Bool} {Q : Unit → W × G → Prop}
    (h : b = true → ∀ s', P.rely t s s' → Q () s') : P.Safe t Q (.assert b) s := by
  cases b with
  | true => exact h rfl
  | false => exact trivial

end

section
variable [DecidableEq T] {P} {Q : T → Unit → W × G → Prop} {m m' : Machine T W Ev} {g : G}

/-- One access: the invariant holds again, all threads are safe, and the word has changed as the
access is marked. -/
theorem Safe.step (hinv : P.inv (m.word, g)) (hsafe : ∀ t, P.Safe t (Q t) (m.left t) (m.word, g))
    {t : T} {event : Option Ev} (h : Step m t event m') (hok : m'.Asserted) :
    ∃ g', P.inv (m'.word, g') ∧ (∀ t, P.Safe t (Q t) (m'.left t) (m'.word, g')) ∧
      P.Emits m.word event m'.word := by
  -- the thread that moved is safe by its own proof, the others by what they rely on
  have others : ∀ {t : T} {p : Program W Ev Unit} {s' : W × G},
      P.Guarantees t (m.word, g) s' → P.Safe t (Q t) p s' →
      ∀ t', P.Safe t' (Q t') (Function.update m.left t p t') s' := by
    intro t p s' hguar hp t'
    by_cases ht : t' = t
    · subst ht
      rwa [Function.update_self]
    · rw [Function.update_of_ne ht]
      exact (hsafe t').rely (hguar.2 t' ht)
  cases h with
  | @access f _ next h =>
    have ht := hsafe t
    have hne : next m.word ≠ .fail := by
      have hokt : Function.update m.left t (next m.word) t ≠ .fail := hok t
      rwa [Function.update_self] at hokt
    rw [h] at ht
    obtain ⟨g', hemits, hguar, hp⟩ := ht _ (P.rely_refl t _) hinv hne
    exact ⟨g', hguar.1, others hguar hp, hemits⟩
  | @acquires free f event next h hfree =>
    have ht := hsafe t
    rw [h] at ht
    have hstep := ht _ (P.rely_refl t _) hinv
    rw [if_pos hfree] at hstep
    obtain ⟨g', hemits, hguar, hp⟩ := hstep
    exact ⟨g', hguar.1, others hguar hp, hemits⟩
  | @spins free f event next h hbusy =>
    have ht := hsafe t
    rw [h] at ht
    have hstep := ht _ (P.rely_refl t _) hinv
    rw [if_neg (by simp [hbusy])] at hstep
    dsimp only at hstep ⊢
    rw [hstep]
    exact ⟨g, hinv, hsafe, rfl⟩

/-- A whole run: the operations that it is marked with lead from the first abstract value to the
last one. -/
theorem Safe.run (hinv : P.inv (m.word, g))
    (hsafe : ∀ t, P.Safe t (Q t) (m.left t) (m.word, g)) {events : List (T × Ev)}
    (hrun : Run m events m') (hok : m'.Asserted) :
    ∃ g', P.inv (m'.word, g') ∧ (∀ t, P.Safe t (Q t) (m'.left t) (m'.word, g')) ∧
      (events.map Prod.snd).foldlM (fun a event => P.apply event a) (P.view m.word) =
        some (P.view m'.word) := by
  induction hrun with
  | nil => exact ⟨g, hinv, hsafe, rfl⟩
  | @snoc m' m'' events t event before step ih =>
    obtain ⟨g', hinv', hsafe', hfold⟩ := ih (step.asserted hok)
    obtain ⟨g'', hinv'', hsafe'', hemits⟩ := Safe.step hinv' hsafe' step hok
    refine ⟨g'', hinv'', hsafe'', ?_⟩
    rw [List.map_append, List.foldlM_append, hfold]
    cases event with
    | none => exact congrArg some hemits.symm
    | some event =>
      change (P.apply event (P.view m'.word) >>= fun a => some a) = _
      rw [hemits]
      rfl

end

end Protocol

end AtomicPrograms
