import JavaAtlas.Model.Application
import JavaAtlas.Proofs.Record.Members

set_option autoImplicit false

/-! # The records of an application

Every record type of the model is faithful. The number beside it is the nesting of its members: one
container for each record, list and dictionary that can be open around a plain value. The members
and the fields are gone through side by side, so the two lists name the same things in one order. -/

namespace JavaAtlas

/-! ## Comments and small declarations -/

instance : FaithfulRecord Comment 0 where
  exists_copy := ⟨_, by repeat' first | exact .nil | apply Copies.of; decide, fun _ => rfl⟩
  nodup_names := by decide +kernel

instance : FaithfulRecord RecordComponent 1 where
  exists_copy := ⟨_, by repeat' first | exact .nil | apply Copies.of; decide, fun _ => rfl⟩
  nodup_names := by decide +kernel

instance : FaithfulRecord FieldDeclaration 1 where
  exists_copy := ⟨_, by repeat' first | exact .nil | apply Copies.of; decide, fun _ => rfl⟩
  nodup_names := by decide +kernel

instance : FaithfulRecord FormalParameter 1 where
  exists_copy := ⟨_, by repeat' first | exact .nil | apply Copies.of; decide, fun _ => rfl⟩
  nodup_names := by decide +kernel

instance : FaithfulRecord EnumConstant 1 where
  exists_copy := ⟨_, by repeat' first | exact .nil | apply Copies.of; decide, fun _ => rfl⟩
  nodup_names := by decide +kernel

/-! ## Persistence operations -/

instance : FaithfulRecord CrudOperation 0 where
  exists_copy := ⟨_, by repeat' first | exact .nil | apply Copies.of; decide, fun _ => rfl⟩
  nodup_names := by decide +kernel

instance : FaithfulRecord CrudQuery 1 where
  exists_copy := ⟨_, by repeat' first | exact .nil | apply Copies.of; decide, fun _ => rfl⟩
  nodup_names := by decide +kernel

/-! ## Methods and constructors -/

instance : FaithfulRecord CallSite 2 where
  exists_copy := ⟨_, by repeat' first | exact .nil | apply Copies.of; decide, fun _ => rfl⟩
  nodup_names := by decide +kernel

instance : FaithfulRecord VariableDeclaration 1 where
  exists_copy := ⟨_, by repeat' first | exact .nil | apply Copies.of; decide, fun _ => rfl⟩
  nodup_names := by decide +kernel

instance : FaithfulRecord InitializerBlock 4 where
  exists_copy := ⟨_, by repeat' first | exact .nil | apply Copies.of; decide, fun _ => rfl⟩
  nodup_names := by decide +kernel

instance : FaithfulRecord Callable 4 where
  exists_copy := ⟨_, by repeat' first | exact .nil | apply Copies.of; decide, fun _ => rfl⟩
  nodup_names := by decide +kernel

/-! ## Types and source files -/

instance : FaithfulRecord TypeDeclaration 6 where
  exists_copy := ⟨_, by repeat' first | exact .nil | apply Copies.of; decide, fun _ => rfl⟩
  nodup_names := by decide +kernel

instance : FaithfulRecord CompilationUnit 8 where
  exists_copy := ⟨_, by repeat' first | exact .nil | apply Copies.of; decide, fun _ => rfl⟩
  nodup_names := by decide +kernel

/-! ## Methods in context, edges and the application -/

instance : FaithfulRecord MethodDetail 5 where
  exists_copy := ⟨_, by repeat' first | exact .nil | apply Copies.of; decide, fun _ => rfl⟩
  nodup_names := by decide +kernel

instance : FaithfulRecord DependencyEdge 6 where
  exists_copy := ⟨_, by repeat' first | exact .nil | apply Copies.of; decide, fun _ => rfl⟩
  nodup_names := by decide +kernel

instance : FaithfulRecord Application 10 where
  exists_copy := ⟨_, by repeat' first | exact .nil | apply Copies.of; decide, fun _ => rfl⟩
  nodup_names := by decide +kernel

end JavaAtlas
