import Calculator.Proofs.BlockReach
import Calculator.Proofs.BuiltinCalls

/-!
# Builtins and blocks

File builtins touch no block and return none. The block builtins make, resize, free and copy blocks, by
calls on them only. So every builtin keeps the blocks of the machine built, and returns a value in which
all blocks were built.
-/

namespace Calculator

theorem Value.Bare.built {value : Value} (bare : value.Bare) : value.Built := by
  apply built_of_none
  rw [Bare, isBare] at bare
  split at bare
  case h_1 held | h_2 held | h_3 held | h_4 held | h_5 held | h_6 held =>
    rw [held]
    rfl
  case h_7 => cases bare

namespace Builtin

open Effect (Upholds)

theorem onBlocks_upholds {operation : NamedBlocks → Except BlockError NamedBlocks}
    (keeps : NamedBlocks.Keeps operation) :
    Upholds Machine.Built (onBlocks operation) fun _ => True := by
  apply Upholds.get_bind
  intro machine built
  split
  · rename_i blocks made
    exact Upholds.set (keeps machine.blocks blocks built made)
  · exact Upholds.throw _

theorem namedBlock_upholds (name : String) (length chunk : Int) :
    Upholds Machine.Built (namedBlock name length chunk) fun _ => True := by
  apply Upholds.get_bind
  intro machine built
  split
  · exact Upholds.bind_any (onBlocks_upholds (NamedBlocks.resize_keeps _ _ _)) fun _ =>
      Upholds.pure trivial
  · dsimp only
    split
    · rename_i id blocks created
      have kept : Machine.Built { machine with blocks } := NamedBlocks.Built.create built created
      exact Upholds.bind_any (Upholds.set kept) fun _ => Upholds.pure trivial
    · exact Upholds.throw _

section Blocks

variable {arguments : List Value} (given : ∀ value ∈ arguments, value.Built)

include given

theorem argument_built (index : Nat) : (argument arguments index).Built := by
  rw [argument, List.getD_eq_getElem?_getD]
  cases found : arguments[index]? with
  | none => exact Value.built_of_none rfl
  | some value => exact given value (List.mem_of_getElem? found)

omit given in
theorem anonymous_upholds : Upholds Machine.Built (blk.anonymous arguments) Value.Built := by
  apply Upholds.bind_any (blockSettings_upholds arguments)
  intro settings
  apply Upholds.get_bind
  intro machine _
  exact Upholds.pure ((Value.built_of_block rfl).mpr (Block.Origin.built (.allocate _ _)))

theorem blk_upholds : Upholds Machine.Built (blk arguments) Value.Built := by
  unfold blk
  split
  · rename_i target rest
    refine Upholds.ite ?_ anonymous_upholds
    apply Upholds.bind_any (blockSettings_upholds rest)
    rintro ⟨length, chunk⟩
    dsimp only
    split
    · exact Upholds.bind_any (namedBlock_upholds _ _ _) fun _ =>
        Upholds.pure (Value.built_of_none rfl)
    · exact Upholds.bind_any (onBlocks_upholds (NamedBlocks.resize_keeps _ _ _)) fun _ =>
        Upholds.pure (Value.built_of_none rfl)
    · rename_i block held
      have built := (Value.built_of_block held).mp (given target List.mem_cons_self)
      exact Upholds.pure ((Value.built_of_block rfl).mpr (built.perform (.resize length chunk)))
    · exact Upholds.throw _
  · exact anonymous_upholds

omit given in
theorem blkfree_upholds : Upholds Machine.Built (blkfree arguments) Value.Built := by
  have null : Upholds Machine.Built (pure Value.null : BuiltinM Value) Value.Built :=
    Upholds.pure (Value.built_of_none rfl)
  unfold blkfree
  split
  · exact Upholds.bind_any (onBlocks_upholds (NamedBlocks.free_keeps _)) fun _ => null
  · exact Upholds.bind_any (onBlocks_upholds (NamedBlocks.freeByName_keeps _)) fun _ => null
  · apply Upholds.bind_any (bounded_upholds _ _ _ _)
    intro number
    exact Upholds.bind_any (onBlocks_upholds (NamedBlocks.free_keeps _)) fun _ => null
  · exact Upholds.throw_bind _ _

omit given in
theorem blocks_upholds : Upholds Machine.Built (blocks arguments) Value.Built := by
  apply Upholds.get_bind
  intro machine _
  dsimp only
  split
  · exact Upholds.pure (Value.built_of_none rfl)
  · apply Upholds.bind_any (wordOr_upholds _ _)
    intro number
    exact Upholds.ite (Upholds.throw_bind _ _) (Upholds.pure (Value.built_of_none rfl))

theorem copyValues_builds (source destination : Nat) (start count position : Int) :
    Upholds Machine.Built (copyValues (argument arguments source) (argument arguments destination)
      start count position) Value.Built :=
  copyValues_upholds <| Copy.copy_upholds (argument_built given source)
    (argument_built given destination) start count position false

theorem copy_upholds : Upholds Machine.Built (copy arguments) Value.Built :=
  Upholds.bind_any (bounded_upholds _ _ _ _) fun _ =>
    Upholds.bind_any (bounded_upholds _ _ _ _) fun _ =>
      Upholds.bind_any (bounded_upholds _ _ _ _) fun _ => copyValues_builds given 0 1 _ _ _

theorem blkcpy_upholds : Upholds Machine.Built (blkcpy arguments) Value.Built :=
  Upholds.bind_any (bounded_upholds _ _ _ _) fun _ =>
    Upholds.bind_any (bounded_upholds _ _ _ _) fun _ =>
      Upholds.bind_any (bounded_upholds _ _ _ _) fun _ => copyValues_builds given 1 0 _ _ _

end Blocks

end Builtin

theorem Registry.standard_call_upholds (name : String) {arguments : List Value}
    (given : ∀ value ∈ arguments, value.Built) :
    Effect.Upholds Machine.Built (standard.call name arguments) Value.Built :=
  standard_call_turns (fun _ built => built) (fun _ => Value.Bare.built) (fun _ _ built => built) name
    (fun _ => Builtin.blk_upholds given) Builtin.blkfree_upholds Builtin.blocks_upholds
    (Builtin.copy_upholds given) (Builtin.blkcpy_upholds given)

end Calculator
