/-!
# Protection bits

Every value and every named block carries eight bits that restrict what may be done with it.
-/

namespace Calculator

structure Protection where
  bits : UInt8
  deriving DecidableEq, Repr, Inhabited

namespace Protection

def none : Protection := ⟨0⟩

def noAssignTo : Protection := ⟨0x01⟩
def noNewValue : Protection := ⟨0x02⟩
def noNewType : Protection := ⟨0x04⟩
def noError : Protection := ⟨0x08⟩
def noCopyTo : Protection := ⟨0x10⟩
def noRealloc : Protection := ⟨0x20⟩
def noAssignFrom : Protection := ⟨0x40⟩
def noCopyFrom : Protection := ⟨0x80⟩

def ofInt (bits : Int) : Protection :=
  ⟨(bits % 256).toNat.toUInt8⟩

def union (left right : Protection) : Protection :=
  ⟨left.bits ||| right.bits⟩

def without (all removed : Protection) : Protection :=
  ⟨all.bits &&& ~~~removed.bits⟩

def contains (all wanted : Protection) : Bool :=
  all.bits &&& wanted.bits == wanted.bits

/-- Storage may be reallocated. -/
def canGrow (protection : Protection) : Bool :=
  !protection.contains noRealloc

theorem contains_union {all wanted : Protection} (bits : Protection)
    (had : all.contains wanted = true) : (all.union bits).contains wanted = true := by
  rw [contains, beq_iff_eq, ← UInt8.toBitVec_inj, UInt8.toBitVec_and] at had ⊢
  rw [union, UInt8.toBitVec_or]
  ext place inside
  have here := congrArg (fun word => word[place]) had
  simp only [BitVec.getElem_and, BitVec.getElem_or] at here ⊢
  rw [Bool.and_or_distrib_right, here]
  cases wanted.bits.toBitVec[place] <;> simp

theorem union_comm (left right : Protection) : left.union right = right.union left :=
  congrArg Protection.mk (UInt8.or_comm left.bits right.bits)

end Protection

end Calculator
