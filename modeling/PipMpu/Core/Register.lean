import PipMpu.Model.ADT

/-!
This module contains the table of `register.c`: the registers of the peripherals that the root accesses by their id,
which is the position in the list of `regid.h`.
-/

/--
The functions `registerAccessRead`, `registerAccessWrite` and `registerAccessReadWrite`.
-/
inductive RegisterAccessor where
  | readOnly
  | writeOnly
  | readWrite
  deriving DecidableEq, Repr

structure RegisterIdToAccessor where
  address : Nat
  accessor : RegisterAccessor
  deriving DecidableEq, Repr

/--
The base address of a peripheral and the offsets of its registers, all of which have the accessor
`registerAccessReadWrite`.
-/
structure RegisterInstance where
  base : Nat
  offsets : List Nat

def RegisterInstance.entries (inst : RegisterInstance) : List RegisterIdToAccessor :=
  inst.offsets.map fun off => ⟨inst.base + off, .readWrite⟩

def NRF_FICR_INSTANCE : RegisterInstance :=
  ⟨0x10000000,
    [0x60, 0x64, 0xA0, 0xA4, 0xA8]⟩

def NRF_POWER_INSTANCE : RegisterInstance :=
  ⟨0x40000000,
    [0x500, 0x524, 0x578, 0x908, 0x918, 0x928, 0x938, 0x948, 0x958, 0x968, 0x978]⟩

def NRF_CLOCK_INSTANCE : RegisterInstance :=
  ⟨0x40000000,
    [0x0, 0x4, 0x8, 0xC, 0x10, 0x100, 0x104, 0x10C, 0x110, 0x418, 0x518]⟩

def NRF_RADIO_ERRATA_INSTANCE : RegisterInstance :=
  ⟨0x40000000,
    [0x5A0]⟩

def NRF_RADIO_INSTANCE : RegisterInstance :=
  ⟨0x40001000,
    [0x0, 0x4, 0x8, 0x10, 0x100, 0x104, 0x10C, 0x110, 0x114, 0x11C, 0x128, 0x130, 0x200, 0x304, 0x308, 0x400, 0x504,
      0x508, 0x50C, 0x510, 0x514, 0x518, 0x51C, 0x520, 0x524, 0x52C, 0x530, 0x534, 0x538, 0x53C, 0x544, 0x548, 0x550,
      0x554, 0x560, 0x600, 0x604, 0x608, 0x60C, 0x610, 0x614, 0x618, 0x61C, 0x620, 0x624, 0x628, 0x62C, 0x630, 0x634,
      0x638, 0x63C, 0x640, 0x650, 0x774, 0xFFC]⟩

def NRF_PPI_INSTANCE : RegisterInstance :=
  ⟨0x4001F000,
    [0x500, 0x504, 0x508, 0x510, 0x514, 0x518, 0x51C, 0x520, 0x524, 0x528, 0x52C, 0x530, 0x534, 0x538, 0x53C, 0x540,
      0x544, 0x548, 0x54C, 0x550, 0x554, 0x558, 0x55C, 0x560, 0x564, 0x568, 0x56C, 0x570, 0x574, 0x578, 0x57C, 0x580,
      0x584, 0x588, 0x58C, 0x590, 0x594, 0x598, 0x59C, 0x5A0, 0x5A4, 0x5A8, 0x5AC]⟩

def NRF_UART0_INSTANCE : RegisterInstance :=
  ⟨0x40002000,
    [0x0, 0x4, 0x8, 0xC, 0x1C, 0x108, 0x110, 0x11C, 0x120, 0x14C, 0x150, 0x200, 0x304, 0x308, 0x500, 0x508, 0x50C,
      0x510, 0x514, 0x518, 0x51C, 0x524, 0x534, 0x538, 0x53C, 0x544, 0x548, 0x56C]⟩

def NRF_UARTE0_INSTANCE : RegisterInstance :=
  ⟨0x40002000,
    [0x0, 0x4, 0x8, 0xC, 0x1C, 0x108, 0x110, 0x11C, 0x120, 0x14C, 0x150, 0x200, 0x304, 0x308, 0x500, 0x508, 0x50C,
      0x510, 0x514, 0x518, 0x51C, 0x524, 0x534, 0x538, 0x53C, 0x544, 0x548, 0x56C]⟩

def NRF_SPIM0_INSTANCE : RegisterInstance :=
  ⟨0x40003000,
    [0x10, 0x14, 0x118, 0x304, 0x308, 0x500, 0x508, 0x50C, 0x510, 0x524, 0x534, 0x538, 0x544, 0x548, 0x554]⟩

def NRF_TWIM0_INSTANCE : RegisterInstance :=
  ⟨0x40003000,
    [0x0, 0x8, 0x104, 0x124, 0x200, 0x304, 0x308, 0x4C4, 0x500, 0x508, 0x50C, 0x524, 0x534, 0x538, 0x544, 0x548,
      0x588]⟩

def NRF_SPIM1_INSTANCE : RegisterInstance :=
  ⟨0x40004000,
    [0x10, 0x14, 0x118, 0x304, 0x308, 0x500, 0x508, 0x50C, 0x510, 0x524, 0x534, 0x538, 0x544, 0x548, 0x554]⟩

def NRF_TWIM1_INSTANCE : RegisterInstance :=
  ⟨0x40004000,
    [0x0, 0x8, 0x104, 0x124, 0x200, 0x304, 0x308, 0x4C4, 0x500, 0x508, 0x50C, 0x524, 0x534, 0x538, 0x544, 0x548,
      0x54C, 0x588]⟩

def NRF_GPIOTE_INSTANCE : RegisterInstance :=
  ⟨0x40006000,
    [0x100, 0x104, 0x108, 0x10C, 0x110, 0x114, 0x118, 0x11C, 0x304, 0x308, 0x510, 0x514, 0x518, 0x51C, 0x520, 0x524,
      0x528, 0x52C]⟩

def NRF_SAADC_INSTANCE : RegisterInstance :=
  ⟨0x40007000,
    [0x0, 0x4, 0x8, 0xC, 0x100, 0x104, 0x110, 0x114, 0x500, 0x510, 0x514, 0x518, 0x5F0, 0x5F4, 0x62C, 0x630]⟩

def NRF_TIMER0_INSTANCE : RegisterInstance :=
  ⟨0x40008000,
    [0x4, 0xC, 0x10, 0x40, 0x44, 0x48, 0x4C, 0x50, 0x54, 0x140, 0x144, 0x148, 0x14C, 0x150, 0x154, 0x504, 0x508,
      0x510, 0x540, 0x544, 0x548, 0x54C]⟩

def NRF_TIMER1_INSTANCE : RegisterInstance :=
  ⟨0x40009000,
    [0x0, 0x4, 0xC, 0x10, 0x40, 0x44, 0x48, 0x4C, 0x50, 0x54, 0x140, 0x144, 0x148, 0x14C, 0x150, 0x154, 0x200, 0x304,
      0x308, 0x504, 0x508, 0x510, 0x540, 0x544, 0x548, 0x54C, 0x550, 0x554]⟩

def NRF_TIMER2_INSTANCE : RegisterInstance :=
  ⟨0x4000A000,
    [0x4, 0x10, 0x40, 0x44, 0x48, 0x4C, 0x50, 0x54, 0x140, 0x144, 0x148, 0x14C, 0x150, 0x154, 0x504, 0x508, 0x510]⟩

def NRF_RTC0_INSTANCE : RegisterInstance :=
  ⟨0x4000B000,
    [0x0, 0x4, 0x8, 0x100, 0x104, 0x140, 0x144, 0x148, 0x14C, 0x304, 0x308, 0x344, 0x348, 0x504, 0x508, 0x540, 0x544,
      0x548, 0x54C]⟩

def NRF_TEMP_INSTANCE : RegisterInstance :=
  ⟨0x4000C000,
    [0x0, 0x4, 0x100, 0x508]⟩

def NRF_RNG_INSTANCE : RegisterInstance :=
  ⟨0x4000D000,
    [0x0, 0x4, 0x100, 0x200, 0x304, 0x308, 0x504, 0x508]⟩

def NRF_ECB_INSTANCE : RegisterInstance :=
  ⟨0x4000E000,
    [0x0, 0x4, 0x100, 0x104, 0x504]⟩

def NRF_WDT_INSTANCE : RegisterInstance :=
  ⟨0x40010000,
    [0x0, 0x304, 0x400, 0x504, 0x508, 0x50C, 0x600]⟩

def NRF_RTC1_INSTANCE : RegisterInstance :=
  ⟨0x40011000,
    [0x0, 0x4, 0x104, 0x140, 0x304, 0x308, 0x504, 0x508, 0x540]⟩

def NRF_QDEC_INSTANCE : RegisterInstance :=
  ⟨0x40012000,
    [0x0, 0x4, 0xC, 0x108, 0x110, 0x304, 0x308, 0x500, 0x514, 0x518, 0x51C, 0x520, 0x524, 0x528]⟩

def NRF_TIMER3_INSTANCE : RegisterInstance :=
  ⟨0x4001A000,
    [0x4, 0x10, 0x40, 0x44, 0x48, 0x4C, 0x50, 0x54, 0x140, 0x144, 0x148, 0x14C, 0x150, 0x154, 0x504, 0x508, 0x510]⟩

def NRF_TIMER4_INSTANCE : RegisterInstance :=
  ⟨0x4001B000,
    [0x4, 0x10, 0x40, 0x44, 0x48, 0x4C, 0x50, 0x54, 0x140, 0x144, 0x148, 0x14C, 0x150, 0x154, 0x504, 0x508, 0x510]⟩

def NRF_NVMC_INSTANCE : RegisterInstance :=
  ⟨0x4001E000,
    [0x400, 0x504, 0x508, 0x540]⟩

def NRF_SPIM2_INSTANCE : RegisterInstance :=
  ⟨0x40004000,
    [0x10, 0x14, 0x118, 0x304, 0x308, 0x500, 0x508, 0x50C, 0x510, 0x524, 0x534, 0x538, 0x544, 0x548, 0x554]⟩

def NRF_RTC2_INSTANCE : RegisterInstance :=
  ⟨0x40024000,
    [0x0, 0x4, 0x104, 0x140, 0x304, 0x308, 0x504, 0x508, 0x540]⟩

def NRF_P0_INSTANCE : RegisterInstance :=
  ⟨0x50000000,
    [0x504, 0x508, 0x50C, 0x510, 0x514, 0x700, 0x704, 0x708, 0x70C, 0x710, 0x714, 0x718, 0x71C, 0x720, 0x724, 0x728,
      0x72C, 0x730, 0x734, 0x738, 0x73C, 0x740, 0x744, 0x748, 0x74C, 0x750, 0x754, 0x758, 0x75C, 0x760, 0x764, 0x768,
      0x76C, 0x770, 0x774, 0x778, 0x77C]⟩

def ARMV7M_NVIC_INSTANCE : RegisterInstance :=
  ⟨0xE000E000,
    [0x100, 0x104, 0x108, 0x10C, 0x110, 0x114, 0x118, 0x11C, 0x120, 0x124, 0x128, 0x12C, 0x130, 0x134, 0x138, 0x13C,
      0x180, 0x184, 0x188, 0x18C, 0x190, 0x194, 0x198, 0x19C, 0x1A0, 0x1A4, 0x1A8, 0x1AC, 0x1B0, 0x1B4, 0x1B8, 0x1BC,
      0x200, 0x204, 0x208, 0x20C, 0x210, 0x214, 0x218, 0x21C, 0x220, 0x224, 0x228, 0x22C, 0x230, 0x234, 0x238, 0x23C,
      0x280, 0x284, 0x288, 0x28C, 0x290, 0x294, 0x298, 0x29C, 0x2A0, 0x2A4, 0x2A8, 0x2AC, 0x2B0, 0x2B4, 0x2B8, 0x2BC,
      0x400, 0x404, 0x408, 0x40C, 0x410, 0x414, 0x418, 0x41C, 0x420, 0x424, 0x428, 0x42C, 0x430, 0x434, 0x438, 0x43C,
      0x440, 0x444, 0x448, 0x44C, 0x450, 0x454, 0x458, 0x45C, 0x460, 0x464, 0x468, 0x46C, 0x470, 0x474, 0x478, 0x47C,
      0x480, 0x484, 0x488, 0x48C, 0x490, 0x494, 0x498, 0x49C, 0x4A0, 0x4A4, 0x4A8, 0x4AC, 0x4B0, 0x4B4, 0x4B8, 0x4BC,
      0x4C0, 0x4C4, 0x4C8, 0x4CC, 0x4D0, 0x4D4, 0x4D8, 0x4DC, 0x4E0, 0x4E4, 0x4E8, 0x4EC, 0x4F0, 0x4F4, 0x4F8, 0x4FC,
      0x500, 0x504, 0x508, 0x50C, 0x510, 0x514, 0x518, 0x51C, 0x520, 0x524, 0x528, 0x52C, 0x530, 0x534, 0x538, 0x53C,
      0x540, 0x544, 0x548, 0x54C, 0x550, 0x554, 0x558, 0x55C, 0x560, 0x564, 0x568, 0x56C, 0x570, 0x574, 0x578, 0x57C,
      0x580, 0x584, 0x588, 0x58C, 0x590, 0x594, 0x598, 0x59C, 0x5A0, 0x5A4, 0x5A8, 0x5AC, 0x5B0, 0x5B4, 0x5B8, 0x5BC,
      0x5C0, 0x5C4, 0x5C8, 0x5CC, 0x5D0, 0x5D4, 0x5D8, 0x5DC, 0x5E0, 0x5E4, 0x5E8, 0x5EC]⟩

def ARMV7M_SCID_INSTANCE : RegisterInstance :=
  ⟨0xE000E000,
    [0xD04, 0xD0C, 0xD10, 0xD14, 0xD18, 0xD1C, 0xD20, 0xD28, 0xD88, 0xDFC]⟩

def NRF_ERRATA_INSTANCE : RegisterInstance :=
  ⟨0xF0000000,
    [0xFE0, 0xFE4, 0xFE8, 0xFEC]⟩

def INSTANCE_LIST : List RegisterInstance :=
  [
    NRF_FICR_INSTANCE, NRF_POWER_INSTANCE, NRF_CLOCK_INSTANCE, NRF_RADIO_ERRATA_INSTANCE, NRF_RADIO_INSTANCE,
    NRF_PPI_INSTANCE, NRF_UART0_INSTANCE, NRF_UARTE0_INSTANCE, NRF_SPIM0_INSTANCE, NRF_TWIM0_INSTANCE,
    NRF_SPIM1_INSTANCE, NRF_TWIM1_INSTANCE, NRF_GPIOTE_INSTANCE, NRF_SAADC_INSTANCE, NRF_TIMER0_INSTANCE,
    NRF_TIMER1_INSTANCE, NRF_TIMER2_INSTANCE, NRF_RTC0_INSTANCE, NRF_TEMP_INSTANCE, NRF_RNG_INSTANCE,
    NRF_ECB_INSTANCE, NRF_WDT_INSTANCE, NRF_RTC1_INSTANCE, NRF_QDEC_INSTANCE, NRF_TIMER3_INSTANCE,
    NRF_TIMER4_INSTANCE, NRF_NVMC_INSTANCE, NRF_SPIM2_INSTANCE, NRF_RTC2_INSTANCE, NRF_P0_INSTANCE,
    ARMV7M_NVIC_INSTANCE, ARMV7M_SCID_INSTANCE, NRF_ERRATA_INSTANCE
  ]

def REGISTER_ID_TO_ACCESSOR : List RegisterIdToAccessor := INSTANCE_LIST.flatMap RegisterInstance.entries

def ARRAY_SIZE : Nat := REGISTER_ID_TO_ACCESSOR.length

/--
The registers that decide which memory the partitions reach: `VTOR`, and the registers of the MPU from `MPU_TYPE` on.
-/
def protectionRegisters : List Nat := 0xE000ED08 :: (List.range 11).map fun i => 0xE000ED90 + 4 * i

/--
A register of the table lies in none of the memory that the partitions and the kernel are in, neither the flash nor
the RAM, and it is none of those that decide which memory the partitions reach.
-/
theorem register_apart
    : ∀ entry ∈ REGISTER_ID_TO_ACCESSOR, (0x10000000 ≤ entry.address ∧ entry.address < 0x20000000
        ∨ 0x40000000 ≤ entry.address) ∧ entry.address ∉ protectionRegisters := by
  decide +kernel

theorem accessor_eq {entry : RegisterIdToAccessor} (h : entry ∈ REGISTER_ID_TO_ACCESSOR)
    : entry.accessor = .readWrite := by
  rcases List.mem_flatMap.mp h with ⟨inst, -, hentry⟩
  rcases List.mem_map.mp hentry with ⟨off, -, rfl⟩
  rfl

example : ARRAY_SIZE = 715 := by decide +kernel
