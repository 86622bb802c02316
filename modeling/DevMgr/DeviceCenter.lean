import DevMgr.Machine
import Mathlib.Data.List.Nodup
/-!
# DeviceCenter — the lists of devices and of their observers

`DeviceCenter.cpp`: `_DeviceList` and `_ObserverList`, each under its own lock.  A call changes one of them in its first
critical section; the second, under the other lock, calls the observers.  Here are the first sections; a call that
returns from there (`already exist`, `not found`) is `none`.
-/
namespace DevMgr

structure DeviceCenter (Dev Obs : Type) where
  deviceList : List Dev
  observerList : List Obs
  deriving DecidableEq, Repr

namespace DeviceCenter

variable {Dev Obs : Type} {d : Dev} {o : Obs} {c c' : DeviceCenter Dev Obs}

def empty : DeviceCenter Dev Obs := { deviceList := [], observerList := [] }

/-- `GetDevice`; its `AddRef` is made under `_DeviceLock` too. -/
def getDevice (c : DeviceCenter Dev Obs) (isEqual : Dev → Bool) : Option Dev := c.deviceList.find? isEqual

section
variable [DecidableEq Dev]

def onDeviceAttached (c : DeviceCenter Dev Obs) (pDevice : Dev) : Option (DeviceCenter Dev Obs) :=
  if pDevice ∈ c.deviceList then none else some { c with deviceList := c.deviceList ++ [pDevice] }

def onDeviceDetached (c : DeviceCenter Dev Obs) (pDevice : Dev) : Option (DeviceCenter Dev Obs) :=
  if pDevice ∈ c.deviceList then some { c with deviceList := c.deviceList.erase pDevice } else none

theorem onDeviceAttached_some (h : c.onDeviceAttached d = some c') :
    d ∉ c.deviceList ∧ c' = { c with deviceList := c.deviceList ++ [d] } := by
  unfold onDeviceAttached at h
  split at h
  · cases h
  · exact ⟨‹_›, (Option.some.inj h).symm⟩

theorem onDeviceDetached_some (h : c.onDeviceDetached d = some c') :
    d ∈ c.deviceList ∧ c' = { c with deviceList := c.deviceList.erase d } := by
  unfold onDeviceDetached at h
  split at h
  · exact ⟨‹_›, (Option.some.inj h).symm⟩
  · cases h

end

section
variable [DecidableEq Obs]

def registerObserver (c : DeviceCenter Dev Obs) (pObserver : Obs) : Option (DeviceCenter Dev Obs) :=
  if pObserver ∈ c.observerList then none else some { c with observerList := c.observerList ++ [pObserver] }

def unregisterObserver (c : DeviceCenter Dev Obs) (pObserver : Obs) : Option (DeviceCenter Dev Obs) :=
  if pObserver ∈ c.observerList then some { c with observerList := c.observerList.erase pObserver } else none

theorem registerObserver_some (h : c.registerObserver o = some c') :
    o ∉ c.observerList ∧ c' = { c with observerList := c.observerList ++ [o] } := by
  unfold registerObserver at h
  split at h
  · cases h
  · exact ⟨‹_›, (Option.some.inj h).symm⟩

theorem unregisterObserver_some (h : c.unregisterObserver o = some c') :
    o ∈ c.observerList ∧ c' = { c with observerList := c.observerList.erase o } := by
  unfold unregisterObserver at h
  split at h
  · exact ⟨‹_›, (Option.some.inj h).symm⟩
  · cases h

end

end DeviceCenter

end DevMgr
