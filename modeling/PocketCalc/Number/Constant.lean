/-!
# Named constants

The doubles nearest to the two numbers that have names.
-/
namespace PocketCalc

inductive Constant where
  | pi | e
  deriving DecidableEq, Repr

def Constant.value : Constant → Float
  | .pi => Float.ofBits 0x400921FB54442D18
  | .e => Float.ofBits 0x4005BF0A8B145769

end PocketCalc
