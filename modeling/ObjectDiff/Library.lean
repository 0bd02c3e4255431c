import ObjectDiff.Walker

/-!
# The objects of a library

`main` processes the objects of one library one after another into one `Context`. The
context shares one `CFunction` per external name between the objects, and which object
reconstructs a signature, and in which state of its unit's cache, depends on the order
of the objects. Because `die_get_at_type` turns a `KeyError` raised while reconstructing
a type into `void` and leaves the type half built in the cache, the signature filed for a
function can then depend on that order.
-/

namespace ObjectDiff

/-- A symbol table whose one record is the global function `name` (`st_info` 0x12). -/
def globalFunc (name : String) : SymbolTable :=
  ⟨[1, 0, 0, 0, 0, 0, 0, 0, 0, 0, 0, 0, 0x12, 0, 0, 0], 16, 16, fun _ => name⟩

/-- Object A defines `void m(void)` in `a.c`. -/
def objA : ObjFile :=
  ⟨globalFunc "m",
    some ⟨[{ offset := 1, tag := .subprogram, name := some "m", declFile := some 1,
             declLine := some 1 }],
      [1], ⟨4, [], [⟨"a.c", 0⟩]⟩⟩⟩

/-- Object B, in `b.c`, declares `struct S m(void)` and defines `struct S n(void)`, where
the member `x` of `struct S` has no `DW_AT_data_member_location`. -/
def objB : ObjFile :=
  ⟨globalFunc "n",
    some ⟨[{ offset := 1, tag := .subprogram, name := some "m", type := some 3,
             declFile := some 1, declLine := some 2 },
           { offset := 2, tag := .subprogram, name := some "n", type := some 3,
             declFile := some 1, declLine := some 3 },
           { offset := 3, tag := .structureType, name := some "S", children := [4] },
           { offset := 4, tag := .member, name := some "x", type := some 5 },
           { offset := 5, tag := .baseType, name := some "int" }],
      [1, 2], ⟨4, [], [⟨"b.c", 0⟩]⟩⟩⟩

lemma processFile_reset (ctxName : String) (removePrefixes : String → String) (fuel : Nat)
    {obj : ObjFile} {u : CompUnit} (hu : obj.firstUnit = some u) (s : ObjState) :
    processFile ctxName removePrefixes fuel obj s = processFile ctxName removePrefixes fuel obj
      { s with types := { s.types with cache := fun _ => none }, staticCache := none } := by
  simp only [processFile, hu, PyM.bind_apply, PyM.modify_apply]

lemma processFiles_cons_ok {ctxName : String} {removePrefixes : String → String} {fuel : Nat}
    {obj : ObjFile} {objs : List ObjFile} {s s₁ : ObjState}
    (h : processFile ctxName removePrefixes fuel obj s = (.ok (), s₁)) :
    processFiles ctxName removePrefixes fuel (obj :: objs) s =
      processFiles ctxName removePrefixes fuel objs s₁ := by
  simp only [processFiles, PyM.bind_apply, h]

/-- What B leaves for the next object: the heap, `funcs` and `header_files`. -/
def afterB : ObjState :=
  ⟨⟨[.struct 3 (some "S") [(some "x", .obj 1)] [], .primitive 5 "int",
      .function 1 (some "m") .void [] false, .function 2 (some "n") (.obj 0) [] false],
      fun _ => none⟩,
    none, [(some "m", (2, false)), (some "n", (3, true))],
    [("b.c", ⟨"b.c", [(some "m", .obj 2), (some "n", .obj 3)], [(some "m", 2), (some "n", 3)]⟩)]⟩

lemma processFiles_objB_objA :
    processFiles "lib" id 20 [objB, objA] .empty = processFiles "lib" id 20 [objA] afterB := by
  have hB : (processFile "lib" id 20 objB .empty).1 = .ok () ∧
      (processFile "lib" id 20 objB .empty).2.types.heap = afterB.types.heap ∧
      (processFile "lib" id 20 objB .empty).2.funcs = afterB.funcs ∧
      (processFile "lib" id 20 objB .empty).2.headers = afterB.headers := by
    decide
  rw [processFiles_cons_ok (Prod.ext hB.1 rfl)]
  simp only [processFiles, PyM.bind_apply]
  rw [processFile_reset _ _ _ rfl, processFile_reset _ _ _ rfl afterB]
  simp only [hB.2.1, hB.2.2.1, hB.2.2.2]
  rfl

/-- `n` has one definition, in B, and neither order raises; yet the `CFunction` filed for
`n` in `b.c` returns `void` when A comes first and `struct S` when B does. With B first,
`m` is reconstructed in B: its return type `struct S` raises `KeyError`, masked as
`void`, and leaves `struct S` cached, which `n` then returns. With A first, `m` is
answered from the context, and `n`'s own reconstruction of `struct S` is masked. -/
theorem processFiles_order_changes_signature :
    let runAB : Except Err Unit × ObjState := processFiles "lib" id 20 [objA, objB] .empty
    let runBA : Except Err Unit × ObjState := processFiles "lib" id 20 [objB, objA] .empty
    runAB.1 = .ok () ∧ runBA.1 = .ok () ∧
      (runAB.2.headers.get "b.c").bind (·.defs.get (some "n")) = some (.obj 3) ∧
      runAB.2.types.heap[3]? = some (.function 2 (some "n") .void [] false) ∧
      (runBA.2.headers.get "b.c").bind (·.defs.get (some "n")) = some (.obj 3) ∧
      runBA.2.types.heap[3]? = some (.function 2 (some "n") (.obj 0) [] false) ∧
      runBA.2.types.heap[0]? = some (.struct 3 (some "S") [(some "x", .obj 1)] []) := by
  dsimp only
  rw [processFiles_objB_objA]
  decide

end ObjectDiff
