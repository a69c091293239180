/-!
# Error codes

The numbers of the errors that a call returns with a minus sign.
-/

namespace Ipu4

def EIO : Int := 5
def ENOMEM : Int := 12
def EFAULT : Int := 14
def EBUSY : Int := 16
def ENODEV : Int := 19
def EINVAL : Int := 22
def ETIMEDOUT : Int := 110
def EALREADY : Int := 114
def ENOIOCTLCMD : Int := 515

end Ipu4
