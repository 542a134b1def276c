import Mathlib.Tactic.Common

/-!
# The objects of a vCenter

What `VCenterService` reads of the managed objects, each with its reference `ref`, which is
its identity. A property that may be unset is an `Option`. The chain of `parent` properties
above a datastore is an `Ancestry`.
-/

namespace VsphereCompliance.VCenter

/-- The objects above a datastore, from its parent up to the root folder. -/
inductive Ancestry
  | root
  | folder (parent : Ancestry)
  | datacenter (ref : Nat) (parent : Ancestry)
  | storagePod (ref : Nat) (name : String) (parent : Ancestry)
  deriving DecidableEq, Repr

/-- `vim.Datastore`; `freeSpace` in bytes, unset when the summary is. -/
structure DatastoreObj where
  ref : Nat
  name : String
  freeSpace : Option Nat
  parent : Ancestry
  deriving DecidableEq, Repr

/-- `vim.StoragePod`. -/
structure PodObj where
  ref : Nat
  name : String
  parent : Ancestry
  childEntity : List DatastoreObj
  deriving DecidableEq, Repr

/-- One entry of `vm.config.hardware.device`: a virtual disk with the datastore of its
backing, a CD/DVD drive with or without `fileName` in its backing, or anything else. -/
inductive Device
  | virtualDisk (datastore : Option DatastoreObj)
  | virtualCdrom (hasFileName : Bool) (datastore : Option DatastoreObj)
  | other
  deriving DecidableEq, Repr

/-- `vim.VirtualMachine` with its devices, unset when the VM has no `config`. -/
structure VmObj where
  ref : Nat
  name : String
  config : Option (List Device)
  deriving DecidableEq, Repr

/-- A VM in a rule. Reading its name raises when the VM is gone. -/
structure VmRef where
  ref : Nat
  name : Option String
  deriving DecidableEq, Repr

/-- The class of a rule; `other` for the rules between VMs and hosts. -/
inductive RuleKind
  | antiAffinity
  | affinity
  | other
  deriving DecidableEq, Repr

structure RuleObj where
  name : String
  kind : RuleKind
  enabled : Bool
  mandatory : Bool
  vms : List VmRef
  key : Nat
  deriving DecidableEq, Repr

structure HostObj where
  vms : List VmObj
  deriving DecidableEq, Repr

/-- `vim.ClusterComputeResource`. -/
structure ClusterObj where
  ref : Nat
  name : String
  hosts : List HostObj
  rules : List RuleObj
  deriving DecidableEq, Repr

/-- The container views below the root folder. -/
structure Tree where
  clusters : List ClusterObj
  datastores : List DatastoreObj
  pods : List PodObj
  deriving DecidableEq, Repr

end VsphereCompliance.VCenter
