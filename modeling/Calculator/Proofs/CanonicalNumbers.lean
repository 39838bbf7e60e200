import Calculator.Proofs.CopyIntoBlock
import Calculator.Proofs.LiteralMeaning
import Calculator.Proofs.PoolLinks
import Calculator.Proofs.SessionActs

/-!
# Canonical numbers

Numbers are made from fractions, from literals, and by writing bytes over a numerator. However a number
is made, its terms are coprime and its denominator is positive, so two numbers are equal when they stand
for one rational, and a constant has one index.
-/

namespace Calculator

def Bytes.magnitude (bytes : Bytes) : Nat :=
  Positional.sum 256 (bytes.map UInt8.toNat)

namespace Word

theorem toNat_shift (byte : UInt8) {place : UInt32} (inside : place.toNat ≤ 24) :
    (byte.toUInt32 <<< place).toNat = byte.toNat * 2 ^ place.toNat := by
  have room : byte.toNat * 2 ^ place.toNat < 2 ^ 32 :=
    calc byte.toNat * 2 ^ place.toNat
        ≤ byte.toNat * 2 ^ 24 := Nat.mul_le_mul_left _ (Nat.pow_le_pow_right (by decide) inside)
      _ < 2 ^ 8 * 2 ^ 24 := Nat.mul_lt_mul_of_pos_right byte.toNat_lt (by decide)
      _ = 2 ^ 32 := by decide
  rw [UInt32.toNat_shiftLeft, UInt8.toNat_toUInt32, Nat.mod_eq_of_lt (by omega : place.toNat < 32),
    Nat.shiftLeft_eq, Nat.mod_eq_of_lt room]

theorem toNat_ofBytes (a b c d : UInt8) :
    (ofBytes a b c d).toNat = a.toNat + 256 * (b.toNat + 256 * (c.toNat + 256 * d.toNat)) := by
  have first := a.toNat_lt
  have second := b.toNat_lt
  have third := c.toNat_lt
  -- Bytes at different places have no bit in common.
  have joined {low : Nat} (high : Nat) {place : Nat} (below : low < 2 ^ place) :
      low ||| high * 2 ^ place = low + high * 2 ^ place := by
    rw [Nat.or_comm, ← Nat.shiftLeft_eq, ← Nat.shiftLeft_add_eq_or_of_lt below, Nat.add_comm]
  have one : a.toNat ||| b.toNat * 2 ^ 8 = a.toNat + b.toNat * 2 ^ 8 := joined _ (by omega)
  have two : a.toNat + b.toNat * 2 ^ 8 ||| c.toNat * 2 ^ 16
      = a.toNat + b.toNat * 2 ^ 8 + c.toNat * 2 ^ 16 := joined _ (by omega)
  have three : a.toNat + b.toNat * 2 ^ 8 + c.toNat * 2 ^ 16 ||| d.toNat * 2 ^ 24
      = a.toNat + b.toNat * 2 ^ 8 + c.toNat * 2 ^ 16 + d.toNat * 2 ^ 24 := joined _ (by omega)
  have places : (8 : UInt32).toNat = 8 ∧ (16 : UInt32).toNat = 16 ∧ (24 : UInt32).toNat = 24 :=
    ⟨rfl, rfl, rfl⟩
  rw [ofBytes, UInt32.toNat_or, UInt32.toNat_or, UInt32.toNat_or, UInt8.toNat_toUInt32,
    toNat_shift b (by decide), toNat_shift c (by decide), toNat_shift d (by decide), places.1,
    places.2.1, places.2.2, one, two, three]
  omega

theorem toNat_ofImage (bytes : Bytes) : toNat (ofImage bytes) = bytes.magnitude := by
  rw [toNat, Positional.value_eq, Bytes.magnitude]
  fun_induction ofImage bytes with
  | case1 => rfl
  | case2 a => simp [Positional.sum, toNat_ofBytes]
  | case3 a b => simp [Positional.sum, toNat_ofBytes]
  | case4 a b c => simp [Positional.sum, toNat_ofBytes]
  | case5 a b c d rest ih =>
      rw [base] at ih
      simp only [List.map_cons, Positional.sum_cons, toNat_ofBytes, base, ih]
      ring

theorem image_append (words more : List UInt32) : image (words ++ more) = image words ++ image more :=
  List.flatMap_append

theorem image_zeros (count : Nat) : image (List.replicate count 0) = Bytes.zeros (size * count) := by
  have zero : toBytes 0 = Bytes.zeros size := by decide
  rw [image, List.flatMap_replicate, zero, Bytes.zeros, List.flatten_replicate_replicate,
    Nat.mul_comm, Bytes.zeros]

end Word

namespace Number

/-- The numerator after bytes are written over its image from a word on. The image is filled up with
zeros, and the sign carries over. -/
def patchedNumerator (number : Number) (start : Nat) (bytes : Bytes) : Int :=
  let image := number.numeratorBytes.padTo (Word.size * (start + wordsFor bytes.length))
  applySign (decide (number.num < 0)) (image.overwrite (Word.size * start) bytes).magnitude

/-- The sign carries over and the denominator stays positive, so nothing is left but to divide. -/
theorem overwriteNumerator_eq {number : Number} (positive : 0 < number.den) (start : Nat)
    (bytes : Bytes) :
    number.overwriteNumerator start bytes
      = ofRat (Rat.divInt (number.patchedNumerator start bytes) number.den) := by
  have image : Word.image (number.numeratorWords
        ++ List.replicate (start + wordsFor bytes.length - number.numeratorWords.length) 0)
      = number.numeratorBytes.padTo (Word.size * (start + wordsFor bytes.length)) := by
    rw [Word.image_append, Word.image_zeros, numeratorBytes, Bytes.padTo, Word.image_length,
      Nat.mul_sub]
  have numerator : (if number.num < 0 then
        -((((number.numeratorBytes.padTo (Word.size * (start + wordsFor bytes.length))).overwrite
          (Word.size * start) bytes).magnitude : Nat) : Int)
      else (((number.numeratorBytes.padTo (Word.size * (start + wordsFor bytes.length))).overwrite
          (Word.size * start) bytes).magnitude : Nat))
      = number.patchedNumerator start bytes := by
    rw [patchedNumerator, applySign]
    by_cases negative : number.num < 0
    · rw [if_pos negative, decide_eq_true negative]
      rfl
    · rw [if_neg negative, decide_eq_false negative]
      rfl
  have common : Int.gcd (number.patchedNumerator start bytes) number.den ≠ 0 :=
    (Int.gcd_pos_of_ne_zero_right _ (Int.ne_of_gt positive)).ne'
  rw [overwriteNumerator, image, Word.toNat_ofImage, Nat.mul_comm start Word.size, numerator,
    if_neg common, divided_positive positive]

end Number

namespace Copy

/-- A copy of a block into a number writes the bytes that it selects over the numerator. -/
theorem copy_into_number {machine : Machine} {source destination after : Value} {block : Block}
    {target : Payload Number} {start count position : Int} {exclusive : Bool}
    (held : destination.data = .number target)
    (stands : blockOf machine.blocks source = .ok block)
    (answered : (copy source start count destination position exclusive machine).1 = .ok after) :
    after.data = .number (if select block.data start.toNat count = [] then target
      else .fresh (intoNumber target.content (select block.data start.toNat count) position)) := by
  have gathered := bytesForBlock_of_block stands start.toNat count
  rw [(copy_answered answered).2, route] at answered
  simp only [Effect.get_bind_run, held, gathered, Effect.lift_ok_bind_run] at answered
  by_cases none : select block.data start.toNat count = []
  · rw [if_pos none]
    rw [if_pos (List.isEmpty_iff.mpr none)] at answered
    cases answered
    exact held
  · rw [if_neg none]
    rw [if_neg (mt List.isEmpty_iff.mp none)] at answered
    cases answered
    rfl

end Copy

namespace Number

/-- How numbers come about, with the fraction that each stands for before anything is reduced. -/
inductive Produced : Number → Int → Int → Prop where
  | fraction {numerator denominator : Int} {number : Number}
      (made : ofFraction numerator denominator = .ok number) :
      Produced number numerator denominator
  | integer (value : Int) : Produced (ofInt value) value 1
  | literal {text : String} {number : Number} {p q : Int} (read : parse text = .ok number)
      (denotes : Denotes text.toList p q) : Produced number p q
  | patched {number : Number} {p q : Int} (before : Produced number p q) (start : Nat)
      (bytes : Bytes) :
      Produced (number.overwriteNumerator start bytes) (number.patchedNumerator start bytes)
        number.den
  | copied {number : Number} {p q : Int} (before : Produced number p q) {machine : Machine}
      {source destination after : Value} {block : Block} {mark : Option Mark}
      {payload : Payload Number} {start count position : Int} {exclusive : Bool}
      (held : destination.data = .number ⟨number, mark⟩)
      (stands : Copy.blockOf machine.blocks source = .ok block)
      (answered : (Copy.copy source start count destination position exclusive machine).1
        = .ok after)
      (stored : after.data = .number payload) :
      Produced payload.content
        (if Copy.select block.data start.toNat count = [] then p
          else number.patchedNumerator
            (if position < 0 then number.numeratorLength else position.toNat)
            (Copy.select block.data start.toNat count))
        (if Copy.select block.data start.toNat count = [] then q else number.den)

/-- The number is the fraction in lowest terms, with a positive denominator. -/
structure Reduces (p q : Int) (number : Number) : Prop where
  proper : q ≠ 0
  positive : 0 < number.den
  coprime : Int.gcd number.num number.den = 1
  equal : number.num * q = p * number.den
  numerator : number.num = q.sign * p / Int.gcd q p
  denominator : number.den = q.natAbs / Int.gcd q p
  zero : p = 0 → number.num = 0 ∧ number.den = 1

theorem Reduces.canonical {p q : Int} {number : Number} (reduces : Reduces p q number) :
    number.Canonical :=
  ⟨reduces.positive, reduces.coprime⟩

theorem reduces_iff {p q : Int} {number : Number} :
    Reduces p q number ↔ q ≠ 0 ∧ number = ofRat (Rat.divInt p q) := by
  constructor
  · intro reduces
    refine ⟨reduces.proper, ?_⟩
    rw [← toRat_eq_divInt reduces.positive reduces.proper reduces.equal]
    exact reduces.canonical.ofRat_toRat.symm
  · rintro ⟨proper, rfl⟩
    have canonical := ofRat_canonical (Rat.divInt p q)
    constructor
    case proper => exact proper
    case positive => exact canonical.positive
    case coprime => exact canonical.coprime
    case equal => exact cross_mul proper
    case numerator => exact Rat.num_divInt p q
    case denominator =>
      have below := Rat.den_divInt p q
      rw [if_neg proper] at below
      exact (congrArg Nat.cast below).trans (Int.natCast_div _ _)
    case zero =>
      rintro rfl
      rw [Rat.zero_divInt]
      exact ⟨rfl, rfl⟩

/-- What each way of making numbers does: it is given proper terms and leaves the canonical form of
their fraction. Bytes are written over canonical numbers only, so the induction is on how a number came
about. -/
theorem Produced.reduces {number : Number} {p q : Int} (produced : Produced number p q) :
    Reduces p q number := by
  induction produced with
  | @fraction numerator denominator number made =>
      by_cases proper : denominator = 0
      · rw [ofFraction, if_pos proper] at made
        cases made
      · rw [ofFraction_eq proper] at made
        cases made
        exact reduces_iff.mpr ⟨proper, rfl⟩
  | integer value =>
      refine reduces_iff.mpr ⟨Int.one_ne_zero, ?_⟩
      rw [ofInt_eq, Rat.divInt_one]
  | literal read denotes => exact reduces_iff.mpr (denotes.value read)
  | patched before start bytes ih =>
      exact reduces_iff.mpr
        ⟨Int.ne_of_gt ih.positive, overwriteNumerator_eq ih.positive start bytes⟩
  | copied before held stands answered stored ih =>
      have brought := Copy.copy_into_number held stands answered
      rw [stored] at brought
      cases brought
      split
      · exact ih
      · exact reduces_iff.mpr ⟨Int.ne_of_gt ih.positive, overwriteNumerator_eq ih.positive _ _⟩

theorem Produced.beq_iff {left right : Number} {p q r s : Int} (one : Produced left p q)
    (two : Produced right r s) : (left == right) = true ↔ p * s = r * q := by
  obtain ⟨proper, rfl⟩ := reduces_iff.mp one.reduces
  obtain ⟨also, rfl⟩ := reduces_iff.mp two.reduces
  rw [beq_iff_eq, ofRat_injective.eq_iff, Rat.divInt_eq_divInt_iff proper also]

end Number

namespace Pool

variable {α : Type} [Internable (Payload α)] [Faithful α] {pool : Pool (Payload α)}

theorem intern_held (pool : Pool (Payload α)) (wanted : Payload α) :
    ∃ payload, (pool.perform (.intern wanted)).get (pool.intern wanted).1 = .ok payload
      ∧ payload.content = wanted.content := by
  simp only [get_ok_iff, perform]
  rcases pool.intern_cases wanted with
    ⟨index, matched, interned⟩ | ⟨_, ⟨index, inside, _, _, interned⟩ | ⟨_, interned⟩⟩
  · obtain ⟨payload, held, same⟩ := matchesPayload_iff.mp matched
    rw [interned, slotAt_modify _ _ rfl, if_pos rfl]
    refine ⟨payload, ?_, same⟩
    cases slot : pool.slotAt index with
    | vacant =>
        rw [slot] at held
        cases held
    | held stored links pinned =>
        rw [slot] at held
        exact held
  · rw [interned, slotAt_set _ inside, if_pos rfl]
    exact ⟨wanted, rfl, rfl⟩
  · rw [interned, slotAt_push, if_pos rfl]
    exact ⟨wanted, rfl, rfl⟩

omit [Internable (Payload α)] [Faithful α] in
theorem isHeld_of_get {index : Nat} {payload : Payload α} (held : pool.get index = .ok payload) :
    pool.isHeld index = true := by
  rw [isHeld_iff]
  intro vacant
  rw [get_ok_iff, vacant] at held
  cases held

/-- Two interns in a row return one index for equal contents, and two for different ones. -/
theorem Kept.intern_twice {standing : List (Payload α)} (kept : pool.Kept standing)
    (first second : Payload α) :
    (pool.intern first).1 = ((pool.perform (.intern first)).intern second).1
      ↔ first.content = second.content := by
  obtain ⟨payload, held, content⟩ := pool.intern_held first
  constructor
  · intro same
    obtain ⟨other, later, also⟩ := (pool.perform (.intern first)).intern_held second
    rw [← same] at later
    rw [get_perform (isHeld_of_get held) (isHeld_of_get later), held] at later
    cases later
    exact content.symm.trans also
  · intro equal
    exact ((kept.perform (.intern first)).accounts.found second _ payload held
      (content.trans equal)).symm

end Pool

namespace Session

variable {session : Session} {view : View} {standing : List (Payload Number)}

theorem Shows.addConstant (shows : session.Shows view) (number : Number) :
    let placed := ((Payload.fresh number).place session.heap.next).1
    (session.addConstant (.fresh number)).1 = (view.constants.intern placed).1
      ∧ ∃ after, (session.addConstant (.fresh number)).2.Shows after
        ∧ after.constants = view.constants.perform (.intern placed) := by
  have known : Known view.next
      ((Pool.Call.intern (Payload.fresh number)).gained.map Part.number ++ view.parts) := by
    apply shows.settled.known.drawn
    intro part member
    rcases List.mem_append.mp member with new | old
    · rw [List.mem_singleton.mp new]
      exact .inl rfl
    · exact .inr old
  refine ⟨?_, _, Act.onConstants_shows shows known, ?_⟩
  · rw [← shows.constants_eq]
    rfl
  · rw [← shows.next]
    rfl

/-- Constants that are added one after the other have one index when they are equal. -/
theorem Shows.addConstantLiteral_twice (shows : session.Shows view)
    (kept : view.constants.Kept standing) {one two : String} {left right : Number}
    (readOne : Number.parse one = .ok left) (readTwo : Number.parse two = .ok right) :
    ∃ first second, (session.addConstantLiteral one).1 = .ok first
      ∧ ((session.addConstantLiteral one).2.addConstantLiteral two).1 = .ok second
      ∧ (first = second ↔ left = right) := by
  have interned (session : Session) {literal : String} {number : Number}
      (read : Number.parse literal = .ok number) :
      session.addConstantLiteral literal
        = (.ok (session.addConstant (.fresh number)).1, (session.addConstant (.fresh number)).2) := by
    rw [addConstantLiteral, read]
  rw [interned session readOne, interned _ readTwo]
  obtain ⟨first, after, reached, constants⟩ := shows.addConstant left
  obtain ⟨second, _⟩ := reached.addConstant right
  refine ⟨_, _, rfl, rfl, ?_⟩
  have twice := kept.intern_twice ((Payload.fresh left).place session.heap.next).1
    ((Payload.fresh right).place (session.addConstant (.fresh left)).2.heap.next).1
  rw [Payload.place_content, Payload.place_content] at twice
  rw [first, second, constants]
  exact twice

end Session

namespace Act

variable {session : Session} {view : View} {standing : List (Payload Number)}

theorem perform_constants (shows : session.Shows view) (kept : view.constants.Kept standing)
    {act : Act} (fits : act.Fits session) :
    ∃ after, (act.perform session).Shows after ∧ after.constants.Kept standing := by
  cases off : act.onPool with
  | true =>
      have known := fits.known
      rw [shows.next, Session.parts, shows.view_eq] at known
      cases act with
      | onConstants call => exact ⟨_, onConstants_shows shows known, kept.perform _⟩
      | onLiterals call => exact ⟨_, onLiterals_shows shows known, kept⟩
      | _ => cases off
  | false =>
      obtain ⟨after, reached, touches⟩ := perform_touches shows fits off
      exact ⟨after, reached, touches.constants ▸ kept⟩

theorem performAll_constants (acts : List Act) (shows : session.Shows view)
    (kept : view.constants.Kept standing) (admitted : Admitted acts session) :
    ∃ after, (performAll acts session).Shows after ∧ after.constants.Kept standing := by
  induction acts generalizing session view with
  | nil => exact ⟨view, shows, kept⟩
  | cons act rest ih =>
      obtain ⟨after, reached, still⟩ := perform_constants shows kept admitted.1
      exact ih reached still admitted.2

end Act

/-- However numbers are made, they are in lowest terms; equal ones stand for one rational and pass the
cheap test of a pool; and two literals are one constant exactly when they denote one rational. -/
theorem numbers_are_canonical :
    (∀ number p q, Number.Produced number p q → Number.Reduces p q number)
      ∧ (∀ left right p q r s, Number.Produced left p q → Number.Produced right r s →
          ((left == right) = true ↔ p * s = r * q)
            ∧ ((left == right) = true → left.profile = right.profile
              ∧ ∀ one other, Internable.rejects (Payload.mk left one) ⟨right, other⟩ = false))
      ∧ ∀ config host acts, Act.Admitted acts (Session.start config host) →
          ∀ one two left right, Number.parse one = .ok left → Number.parse two = .ok right →
            (∃ p q, Number.Denotes one.toList p q) ∧ (∃ r s, Number.Denotes two.toList r s)
              ∧ ∀ p q r s, Number.Denotes one.toList p q → Number.Denotes two.toList r s →
                let session := Act.performAll acts (Session.start config host)
                ∃ first second, (session.addConstantLiteral one).1 = .ok first
                  ∧ ((session.addConstantLiteral one).2.addConstantLiteral two).1 = .ok second
                  ∧ (first = second ↔ p * s = r * q) := by
  refine ⟨fun _ _ _ produced => produced.reduces, ?_, ?_⟩
  · intro left right p q r s one two
    refine ⟨one.beq_iff two, ?_⟩
    intro equal
    have same := eq_of_beq equal
    refine ⟨by rw [same], fun _ _ => ?_⟩
    rw [same]
    exact bne_self_eq_false _
  · intro config host acts admitted one two left right readOne readTwo
    refine ⟨Number.parseChars_denotes _ readOne, Number.parseChars_denotes _ readTwo, ?_⟩
    intro p q r s denotesOne denotesTwo
    obtain ⟨view, shows, kept⟩ := Act.performAll_constants acts (Session.Shows.start config host)
      (Constants.new_kept config.constantChunk) admitted
    obtain ⟨first, second, indexOne, indexTwo, same⟩ :=
      shows.addConstantLiteral_twice kept readOne readTwo
    refine ⟨first, second, indexOne, indexTwo, same.trans ?_⟩
    have produced := (Number.Produced.literal readOne denotesOne).beq_iff
      (Number.Produced.literal readTwo denotesTwo)
    rwa [beq_iff_eq] at produced

example : Number.parse "1.50" = Number.parse "6/4" := by cbv

/-- A numerator that is written over with a zero leaves no denominator. -/
example : (Number.overwriteNumerator ⟨3, 2⟩ 0 [0]).den = 1 := by decide

end Calculator
